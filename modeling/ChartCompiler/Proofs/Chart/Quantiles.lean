import ChartCompiler.Proofs.Axis.CompleteRows
import Mathlib.Tactic.Linarith

/-!
# Box plots and quantile bands

Both charts show the complete rows of their records by category (`quantiles_shown`).  Quantile bands
draw the numbers of a category as heights that are stacked on each other: in exact arithmetic the
parts reach up to the lowest, the second, the fourth and the highest number, because the numbers are
in ascending order (`QuantileBands.stacks_of_ascending`).
-/

set_option autoImplicit false

namespace ChartCompiler

open CompleteRow

/-- The complete rows of some records are shown with these labels, titles and summaries. -/
def ShowsComplete {α : Type} [Quantity α] (category : String) (fields : List String)
    (rows : List Record) (labels titles : List String) (summaries : List (FiveNumbers α)) : Prop :=
  ∃ (given : List (CompleteRow α)) (shown : List String),
    List.Forall₂ (Reads category fields) (rows.filter (accepts category fields)) given ∧
      SummariesShown given shown labels titles summaries

theorem ShowsComplete.ascending {α : Type} [Quantity α] {category : String} {fields : List String}
    {rows : List Record} {labels titles : List String} {summaries : List (FiveNumbers α)}
    (shows : ShowsComplete category fields rows labels titles summaries) :
    ∀ numbers ∈ summaries, numbers.toList.Pairwise (· ≤ ·) := by
  obtain ⟨given, names, -, shown⟩ := shows
  exact shown.ascending

/-- Rows that are complete are shown. -/
theorem ShowsComplete.summaries_ne_nil {α : Type} [Quantity α] {category : String}
    {fields : List String} {rows : List Record} {labels titles : List String}
    {summaries : List (FiveNumbers α)}
    (shows : ShowsComplete category fields rows labels titles summaries)
    (complete : rows.filter (accepts category fields) ≠ []) : summaries ≠ [] := by
  obtain ⟨given, names, reads, shown⟩ := shows
  have present : given ≠ [] := by
    rw [← List.length_pos_iff, ← reads.length_eq]
    exact List.length_pos_iff.mpr complete
  obtain ⟨row, rest, rfl⟩ := List.exists_cons_of_ne_nil present
  have member : row.category ∈ names := (shown.mem_iff _).mpr List.mem_cons_self
  rw [← List.length_pos_iff, ← shown.summaries.length_eq]
  exact List.length_pos_of_mem member

theorem showsComplete_ofRows {α : Type} [Quantity α] [Quantity.Ordered α] {category : String}
    {fields : List String} (five : fields.length = 5) (rows : List Record) :
    let found : Summaries α := .ofRows category fields rows
    ShowsComplete category fields rows found.register.display.labels
      found.register.display.titles (pick found.register.display.order found.summaries) :=
  ⟨_, _, reads_ofRecords category fields rows, summariesShown_ofRows five rows⟩

/-! ## Fields -/

theorem Boxplot.length_of_fields? {rows : List Record} {config : Config} {category : String}
    {fields : List String} (resolved : fields? rows config = some (category, fields)) :
    fields.length = 5 := by
  simp only [fields?, Option.bind_eq_bind, Option.bind_eq_some_iff, Option.pure_def,
    Option.some.injEq, Prod.mk.injEq] at resolved
  obtain ⟨_, -, _, -, _, -, _, -, _, -, _, -, -, rfl⟩ := resolved
  rfl

namespace QuantileBands

theorem length_of_fields? {rows : List Record} {config : Config} {category : String}
    {fields : List String} (resolved : fields? rows config = some (category, fields)) :
    fields.length = 5 := by
  obtain ⟨_, found, rest⟩ := Option.bind_eq_some_iff.mp resolved
  obtain ⟨_, -, same⟩ := Option.bind_eq_some_iff.mp rest
  obtain ⟨-, rfl⟩ := Prod.mk.inj (Option.some.inj same)
  rw [← (mapM_eq_some_iff.mp found).length_eq, length_names]

/-! ## Stacked parts -/

/-- At each position the stacked parts reach up to four of the five numbers, and none but the first
is below zero. -/
def Stacks (quantiles : List (FiveNumbers ℚ)) : Prop :=
  ∀ (position : Nat) (numbers : FiveNumbers ℚ), quantiles[position]? = some numbers →
    ∃ base lower inner upper,
      (part 0 quantiles)[position]? = some base ∧ (part 1 quantiles)[position]? = some lower ∧
      (part 2 quantiles)[position]? = some inner ∧ (part 3 quantiles)[position]? = some upper ∧
      base = numbers.lowest ∧ base + lower = numbers.lower ∧
      base + lower + inner = numbers.upper ∧ base + lower + inner + upper = numbers.highest ∧
      0 ≤ lower ∧ 0 ≤ inner ∧ 0 ≤ upper

/-- Numbers in ascending order are stacked. -/
theorem stacks_of_ascending {quantiles : List (FiveNumbers ℚ)}
    (ascending : ∀ numbers ∈ quantiles, numbers.toList.Pairwise (· ≤ ·)) : Stacks quantiles := by
  intro position numbers here
  have ordered := ascending numbers (List.mem_of_getElem? here)
  simp only [FiveNumbers.toList, List.pairwise_cons] at ordered
  have outer : numbers.lowest ≤ numbers.lower := ordered.1 _ (by simp)
  have inner : numbers.lower ≤ numbers.upper := ordered.2.1 _ (by simp)
  have outer' : numbers.upper ≤ numbers.highest := ordered.2.2.2.1 _ (by simp)
  have drawn (place : Nat) {height : FiveNumbers ℚ → ℚ}
      (made : ∀ numbers, (heights numbers)[place]? = some (height numbers)) :
      (part place quantiles)[position]? = some (height numbers) := by
    rw [part_eq_map place made, List.getElem?_map, here, Option.map_some]
  refine ⟨_, _, _, _, drawn 0 fun _ => rfl, drawn 1 fun _ => rfl, drawn 2 fun _ => rfl,
    drawn 3 fun _ => rfl, rfl, ?_⟩
  refine ⟨?_, ?_, ?_, ?_, ?_, ?_⟩ <;> linarith

/-- The series of an option that are stacked. -/
def stackedSeries (option : Json) : List Json :=
  (option.itemsAt "series").filter fun series => (series.member? "stack").isSome

theorem exists_option {data : Data Float} (present : data.quantiles ≠ []) (config : Config)
    (dark : Bool) : ∃ option, option? data config dark = some option := by
  rw [option?, if_neg (by simpa using present)]
  exact ⟨_, rfl⟩

/-- The parts are emitted, and nothing else is stacked on them. -/
theorem data_stackedSeries {data : Data Float} {config : Config} {dark : Bool} {option : Json}
    (made : option? data config dark = some option) :
    (stackedSeries option).map (·.member? "data") =
      (List.range 4).map fun place =>
        some (.array ((part place data.quantiles).map Json.ofFloat)) := by
  rw [option?] at made
  split at made
  · cases made
  · cases made
    simp [stackedSeries, around, Json.itemsAt, Json.items?, stackMembers, band,
      Json.member?_set_of_ne, List.range_succ]

end QuantileBands

/-! ## Charts of records -/

/-- **Box plots and quantile bands show the complete rows of their records.**  There is one entry
for each category, in order of time or else in the order in which the categories first come up, and
it holds the five numbers of the last complete row of the category in ascending order.  Quantile
bands emit four stacked series whose heights add up to the quantiles. -/
theorem quantiles_shown (rows : List Record) (config : Config) :
    (∀ category fields, Boxplot.fields? rows config = some (category, fields) →
      let data : Boxplot.Data Float := Boxplot.ofRows rows config
      ShowsComplete category fields rows data.labels data.titles data.boxes) ∧
    ∀ category fields, QuantileBands.fields? rows config = some (category, fields) →
      let data : QuantileBands.Data Float := QuantileBands.ofRows rows config
      let exact : QuantileBands.Data ℚ := QuantileBands.ofRows rows config
      ShowsComplete category fields rows data.labels data.titles data.quantiles ∧
        ShowsComplete category fields rows exact.labels exact.titles exact.quantiles ∧
        QuantileBands.Stacks exact.quantiles ∧
        ∀ dark option, QuantileBands.option? data config dark = some option →
          (QuantileBands.stackedSeries option).map (·.member? "data") =
            (List.range 4).map fun place =>
              some (.array ((QuantileBands.part place data.quantiles).map Json.ofFloat)) := by
  constructor
  · intro category fields resolved data
    simp only [data, Boxplot.ofRows, resolved]
    exact showsComplete_ofRows (Boxplot.length_of_fields? resolved) rows
  · intro category fields resolved data exact
    have five := QuantileBands.length_of_fields? resolved
    have shown : ShowsComplete category fields rows data.labels data.titles data.quantiles := by
      simp only [data, QuantileBands.ofRows, resolved]
      exact showsComplete_ofRows five rows
    have shown' : ShowsComplete category fields rows exact.labels exact.titles exact.quantiles := by
      simp only [exact, QuantileBands.ofRows, resolved]
      exact showsComplete_ofRows five rows
    exact ⟨shown, shown', QuantileBands.stacks_of_ascending shown'.ascending,
      fun dark option => QuantileBands.data_stackedSeries⟩

/-- A category with two complete rows, the second one in disorder, and one with an incomplete row
before its complete one. -/
def boxRecords : List Record :=
  [[("category", .string "b"), ("max", 9), ("median", 3), ("min", 1), ("q1", 2), ("q3", 5)],
    [("category", .string "a"), ("median", 3), ("min", 1), ("q1", 2), ("q3", 5)],
    [("category", .string "a"), ("max", 4), ("median", 2), ("min", 0), ("q1", 1), ("q3", 3)],
    [("category", .string "b"), ("max", 1), ("median", .string "7"), ("min", 8), ("q1", 6),
      ("q3", 2)]]

/-- Quantile bands that read the numbers that box plots read. -/
def boxConfig : Config :=
  { quantile := { quantileFields := ["min", "q1", "median", "q3", "max"] } }

/-- Three rows are complete, so that there are bands to draw. -/
theorem quantiles_shown_of_boxes :
    let fields := ["min", "q1", "median", "q3", "max"]
    let box : Boxplot.Data Float := Boxplot.ofRows boxRecords boxConfig
    let bands : QuantileBands.Data Float := QuantileBands.ofRows boxRecords boxConfig
    let exact : QuantileBands.Data ℚ := QuantileBands.ofRows boxRecords boxConfig
    Boxplot.fields? boxRecords boxConfig = some ("category", fields) ∧
      QuantileBands.fields? boxRecords boxConfig = some ("category", fields) ∧
      (boxRecords.filter (accepts "category" fields)).length = 3 ∧
      ShowsComplete "category" fields boxRecords box.labels box.titles box.boxes ∧
      ShowsComplete "category" fields boxRecords bands.labels bands.titles bands.quantiles ∧
      QuantileBands.Stacks exact.quantiles ∧
      ∃ option, QuantileBands.option? bands boxConfig false = some option ∧
        (QuantileBands.stackedSeries option).map (·.member? "data") =
          (List.range 4).map fun place =>
            some (.array ((QuantileBands.part place bands.quantiles).map Json.ofFloat)) := by
  intro fields box bands exact
  have found : Boxplot.fields? boxRecords boxConfig = some ("category", fields) := rfl
  have found' : QuantileBands.fields? boxRecords boxConfig = some ("category", fields) := rfl
  have complete : (boxRecords.filter (accepts "category" fields)).length = 3 := by decide +kernel
  have present : boxRecords.filter (accepts "category" fields) ≠ [] :=
    List.length_pos_iff.mp (complete ▸ Nat.succ_pos 2)
  obtain ⟨boxes, both⟩ := quantiles_shown boxRecords boxConfig
  obtain ⟨shown, -, stacked, emitted⟩ := both _ _ found'
  obtain ⟨option, made⟩ :=
    QuantileBands.exists_option (shown.summaries_ne_nil present) boxConfig false
  exact ⟨found, found', complete, boxes _ _ found, shown, stacked, option, made,
    emitted false option made⟩

end ChartCompiler
