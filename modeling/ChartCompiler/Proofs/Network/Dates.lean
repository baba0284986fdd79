import ChartCompiler.Proofs.Network.Totals
import ChartCompiler.Proofs.Sorting
import ChartCompiler.Proofs.Time.TextOrder

/-!
# Dates of edges

An edge keeps the greatest of the dates of its rows, where dates are compared as texts.  Among dates
that are spelled alike that is the latest one.  Among others it need not be: all counts of seconds
since 2001 and before 2033 start with the digit 1, and are less than the days of any year after 1999
(`kept_date_of_mixed_earlier`).
-/

set_option autoImplicit false

namespace ChartCompiler.Network

variable {α : Type}

/-! ## The rows of an edge -/

namespace Fields

/-- The key of the edge that a row is added to; none for a row that does not name both ends. -/
def key? (fields : Fields) (row : Record) : Option Key := do
  let source ← row.label? fields.source
  let target ← row.label? fields.target
  return { source, target, style := labelIn row fields.style }

/-- The dates in the rows of an edge. -/
def datesOf (fields : Fields) (rows : List Record) (key : Key) : List String :=
  (rows.filter fun row => fields.key? row = some key).filterMap fun row => labelIn row fields.date

variable [Quantity α]

theorem key?_eq (fields : Fields) (row : Record) :
    fields.key? row = (transfer? fields row : Option (Transfer α)).map Transfer.key := by
  simp only [key?, transfer?]
  cases row.label? fields.source with
  | none => rfl
  | some source => cases row.label? fields.target <;> rfl

theorem date_of_transfer?_eq_some {fields : Fields} {row : Record} {transfer : Transfer α}
    (read : transfer? fields row = some transfer) : transfer.date = labelIn row fields.date := by
  simp only [transfer?, Option.bind_eq_bind, Option.bind_eq_some_iff] at read
  obtain ⟨source, -, target, -, same⟩ := read
  rw [← Option.some.inj same]

/-- The dates of an edge are those of the transfers of its key. -/
theorem datesOf_eq (fields : Fields) (rows : List Record) (key : Key) :
    fields.datesOf rows key =
      ((rows.filterMap (transfer? (α := α) fields)).filter (·.key = key)).filterMap (·.date) := by
  induction rows with
  | nil => rfl
  | cons row rows ih =>
      rw [datesOf] at ih ⊢
      rw [List.filter_cons, key?_eq (α := α)]
      cases read : (transfer? fields row : Option (Transfer α)) with
      | none =>
          rw [List.filterMap_cons_none read, ← ih]
          rfl
      | some transfer =>
          rw [List.filterMap_cons_some read, List.filter_cons]
          by_cases same : transfer.key = key
          · simp [same, ← ih, List.filterMap_cons, date_of_transfer?_eq_some read]
          · simp [same, ← ih]

end Fields

/-! ## The greatest date -/

/-- Two texts spell dates alike. -/
def SpelledAlike (first second : String) : Prop :=
  ∃ label label' : Written.Label, label.text = first ∧ label'.text = second ∧ label.IsAlike label'

/-- No other date is later than the one that is kept. -/
def KeepsLatest (dates : List String) (kept : Option String) : Prop :=
  ∀ date, kept = some date → ∀ other ∈ dates, ∀ instant instant',
    Instant.ofCell? (.string date) = some instant →
      Instant.ofCell? (.string other) = some instant' → ¬ instant.IsBefore instant'

/-- A date is kept that no other date is greater than as a text, and that no date spelled alike is
later than. -/
structure KeepsGreatest (dates : List String) (kept : Option String) : Prop where
  /-- A date is kept if there is any. -/
  none_iff : kept = none ↔ dates = []
  /-- It is the greatest text. -/
  greatest : ∀ date, kept = some date → IsGreatest {other | other ∈ dates} date
  /-- It is not earlier than a date that is spelled alike. -/
  latest : ∀ date, kept = some date → ∀ other ∈ dates, SpelledAlike other date →
    ∀ instant instant', Instant.ofCell? (.string date) = some instant →
      Instant.ofCell? (.string other) = some instant' → ¬ instant.IsBefore instant'

theorem latest_none (kept : Option String) : latest kept none = kept := by
  cases kept <;> rfl

theorem latest_some (kept given : String) :
    latest (some kept) (some given) = some (max kept given) := by
  rw [latest, max_def_lt]
  exact (apply_ite some _ _ _).symm

/-- The greatest text is the latest date among those that are spelled alike. -/
theorem not_isBefore_of_spelledAlike {date other : String} (alike : SpelledAlike other date)
    (ordered : other ≤ date) {instant instant' : Instant}
    (read : Instant.ofCell? (.string date) = some instant)
    (read' : Instant.ofCell? (.string other) = some instant') : ¬ instant.IsBefore instant' := by
  obtain ⟨label, label', rfl, rfl, alike⟩ := alike
  rw [Written.Label.eq_of_ofCell?_text read, Written.Label.eq_of_ofCell?_text read']
  exact Written.Label.not_isBefore_of_le alike ordered

variable [Quantity α]

/-- An edge keeps the greatest date of its transfers. -/
theorem date_foldl_absorb (source target : Nat) (style : Option String)
    (rows : List (Transfer α)) :
    let kept := (rows.foldl Edge.absorb (.fresh source target style)).date
    let dates := rows.filterMap (·.date)
    (kept = none ∧ dates = []) ∨
      ∃ date, kept = some date ∧ IsGreatest {other | other ∈ dates} date := by
  induction rows using List.reverseRecOn with
  | nil => exact .inl ⟨rfl, rfl⟩
  | append_singleton rows row ih =>
      intro kept dates
      have next : kept = latest (rows.foldl Edge.absorb (.fresh source target style)).date
          row.date := by
        simp only [kept, List.foldl_append, List.foldl_cons, List.foldl_nil, Edge.absorb]
      rw [next]
      cases given : row.date with
      | none =>
          have same : dates = rows.filterMap (·.date) := by simp [dates, given]
          rw [same, latest_none]
          exact ih
      | some date =>
          have more : dates = rows.filterMap (·.date) ++ [date] := by simp [dates, given]
          right
          rw [more]
          rcases ih with ⟨none, nothing⟩ | ⟨earlier, some, greatest⟩
          · rw [none, nothing]
            exact ⟨date, rfl, by simp⟩
          · rw [some, latest_some]
            exact ⟨_, rfl, isGreatest_concat greatest date⟩

theorem keepsGreatest_foldl_absorb (source target : Nat) (style : Option String)
    (rows : List (Transfer α)) :
    KeepsGreatest (rows.filterMap (·.date))
      (rows.foldl Edge.absorb (.fresh source target style)).date := by
  rcases date_foldl_absorb source target style rows with ⟨none, nothing⟩ | ⟨date, some, greatest⟩
  · rw [none, nothing]
    exact ⟨iff_of_true rfl rfl, nofun, nofun⟩
  · rw [some]
    constructor
    case none_iff => exact iff_of_false nofun (List.ne_nil_of_mem greatest.1)
    case greatest =>
      rintro _ ⟨⟩
      exact greatest
    case latest =>
      rintro _ ⟨⟩ other member alike instant instant' read read'
      exact not_isBefore_of_spelledAlike alike (greatest.2 member) read read'

namespace Graph

/-- **An edge keeps the greatest of the dates of its rows as a text, which is the latest one among
those that are spelled alike.** -/
theorem ofRows_keeps_dates {records : List Record} {config : Config} {fields : Fields}
    (resolved : Fields.resolve records config = some fields) :
    ∀ edge ∈ (ofRows records config : Graph α).edges, ∃ key,
      (ofRows records config : Graph α).key? edge = some key ∧
        KeepsGreatest (fields.datesOf records key) edge.date := by
  rw [ofRows_eq_merged resolved]
  intro edge member
  obtain ⟨key, known, rfl, -⟩ := edge_merged member
  refine ⟨key, key?_merged known, ?_⟩
  rw [Fields.datesOf_eq (α := α)]
  exact keepsGreatest_foldl_absorb _ _ _ _

/-- The rows of one edge with some dates. -/
def datedRows (dates : List String) : List Record :=
  dates.map fun date =>
    [("source", .string "left"), ("target", .string "right"), ("when", .string date)]

/-- Where the dates are. -/
def datedConfig : Config :=
  { network := { dateField := some "when" } }

/-- A minute, a moment within it, and the month of both. -/
def growingRows : List Record :=
  datedRows ["2024-05-01T10:00", "2024-05-01T10:00:30.5", "2024-05"]

theorem ofRows_keeps_dates_of_growing :
    ∃ fields, Fields.resolve growingRows datedConfig = some fields ∧
      (ofRows growingRows datedConfig : Graph Float).edges.map (·.date) =
        [some "2024-05-01T10:00:30.5"] ∧
      SpelledAlike "2024-05" "2024-05-01T10:00:30.5" ∧
      ∀ edge ∈ (ofRows growingRows datedConfig : Graph Float).edges, ∃ key,
        (ofRows growingRows datedConfig : Graph Float).key? edge = some key ∧
          KeepsGreatest (fields.datesOf growingRows key) edge.date := by
  let may : Written.Day := ⟨⟨2024, 5, 1⟩, by decide, by decide⟩
  let moment : Written.Moment :=
    { day := may, separator := .letter, hour := 10, minute := 0
      seconds := .given 30 (some ⟨['5'], List.forall_mem_singleton.mpr rfl, by decide⟩)
      offset := .omitted }
  refine ⟨_, rfl, by decide +kernel, ⟨.wholeMonth may rfl, .clock moment, ?_, ?_, ?_⟩,
    ofRows_keeps_dates rfl⟩
  · decide +kernel
  · decide +kernel
  · exact ⟨⟨.calendar .letter, trivial, rfl⟩, rfl, fun _ => rfl, fun _ => rfl⟩

/-- A day, and the start of the year after it as a count of seconds. -/
def mixedRows : List Record :=
  datedRows ["2024-01-01", "1735689600"]

/-- The day is kept, although the count is later. -/
theorem kept_date_of_mixed_earlier :
    ∃ fields, Fields.resolve mixedRows datedConfig = some fields ∧
      ¬ ∀ edge ∈ (ofRows mixedRows datedConfig : Graph Float).edges, ∀ key,
        (ofRows mixedRows datedConfig : Graph Float).key? edge = some key →
          KeepsLatest (fields.datesOf mixedRows key) edge.date := by
  have kept : ((ofRows mixedRows datedConfig : Graph Float).edges[0]?.map fun edge =>
      (edge.date, (ofRows mixedRows datedConfig : Graph Float).key? edge)) =
        some (some "2024-01-01", some ⟨"left", "right", none⟩) := by
    decide +kernel
  obtain ⟨edge, here, same⟩ := Option.map_eq_some_iff.mp kept
  obtain ⟨date, key⟩ := Prod.mk.inj same
  refine ⟨_, rfl, fun latest => ?_⟩
  apply latest edge (List.mem_of_getElem? here) _ key _ date "1735689600" (by decide +kernel)
    { seconds := 1704067200, nanoseconds := 0 } { seconds := 1735689600, nanoseconds := 0 }
    (by decide +kernel) (by decide +kernel)
  exact .inl (by decide)

end Graph

end ChartCompiler.Network
