import ChartCompiler.Format.Date
import ChartCompiler.Proofs.Text.Parts
import ChartCompiler.Proofs.Time.Cadence

/-!
# Which titles merge

The title of a category on a time axis leaves out what the cadence of the axis makes redundant.  The
cadence follows from the least gap, and its bounds leave room for months and years of every length,
so what is left out may still differ: two days of one month get one title when they are 28 days
apart and no two samples are closer.

A title can be read back.  Its parts are kept apart by marks that they do not hold, so two titles
are one text exactly when they agree in every part (`dateLabel_subDaily_eq_iff` and its siblings).
Together with the least gap this says which instants of a series share a title
(`categoryLabel_eq_iff_merges`).
-/

set_option autoImplicit false

namespace ChartCompiler

/-! ## Reading a title back -/

theorem blank_notMem_monthName {month : Nat} (range : 1 ≤ month ∧ month ≤ 12) :
    ' ' ∉ (monthName month).toList := by
  have free : ∀ place < 12, ' ' ∉ (monthNames.getD place "").toList := by decide
  exact free (month - 1) (by omega)

theorem monthName_inj {month month' : Nat} (range : 1 ≤ month ∧ month ≤ 12)
    (range' : 1 ≤ month' ∧ month' ≤ 12) (same : monthName month = monthName month') :
    month = month' := by
  have distinct : ∀ place < 12, ∀ place' < 12,
      monthNames.getD place "" = monthNames.getD place' "" → place = place' := by decide
  have places := distinct (month - 1) (by omega) (month' - 1) (by omega) same
  omega

theorem notMem_naturalText {number : Nat} {mark : Char} (noDigit : mark.isDigit = false) :
    mark ∉ (naturalText number).toList := by
  intro member
  rw [toList_naturalText] at member
  rw [isDigit_of_mem_digitsOf member] at noDigit
  cases noDigit

theorem notMem_integerText {number : Int} {mark : Char} (noDigit : mark.isDigit = false)
    (noSign : mark ≠ '-') : mark ∉ (integerText number).toList := by
  intro member
  rcases mem_toList_integerText member with sign | digit
  · exact noSign sign
  · rw [digit] at noDigit
    cases noDigit

section Titles

variable (first second : Instant)

theorem Instant.month_date (instant : Instant) :
    1 ≤ instant.date.month ∧ instant.date.month ≤ 12 :=
  Date.month_ofDays _

theorem monthName_eq_iff : monthName first.date.month = monthName second.date.month ↔
    first.date.month = second.date.month :=
  ⟨monthName_inj first.month_date second.month_date, congrArg monthName⟩

/-- The month is read back from a title, whatever follows it. -/
theorem month_cut_iff {rest rest' : List Char} :
    (monthName first.date.month).toList ++ ' ' :: rest =
        (monthName second.date.month).toList ++ ' ' :: rest' ↔
      first.date.month = second.date.month ∧ rest = rest' := by
  rw [Text.cut_inj (blank_notMem_monthName first.month_date)
    (blank_notMem_monthName second.month_date), String.toList_inj, monthName_eq_iff]

/-- The day of the month is read back from a title, whatever follows it. -/
theorem day_cut_iff {rest rest' : List Char} :
    (naturalText first.date.day).toList ++ ',' :: rest =
        (naturalText second.date.day).toList ++ ',' :: rest' ↔
      first.date.day = second.date.day ∧ rest = rest' := by
  rw [Text.cut_inj (notMem_naturalText rfl) (notMem_naturalText rfl), String.toList_inj,
    naturalText_injective.eq_iff]

theorem year_iff : (integerText first.date.year).toList = (integerText second.date.year).toList ↔
    first.date.year = second.date.year := by
  rw [String.toList_inj, integerText_injective.eq_iff]

/-- The year is read back from a title, whatever follows it. -/
theorem year_cut_iff {rest rest' : List Char} :
    (integerText first.date.year).toList ++ ' ' :: rest =
        (integerText second.date.year).toList ++ ' ' :: rest' ↔
      first.date.year = second.date.year ∧ rest = rest' := by
  rw [Text.cut_inj (notMem_integerText rfl (by decide)) (notMem_integerText rfl (by decide)),
    year_iff]

theorem clock_iff {first second : Clock} :
    (paddedText 2 first.hour).toList ++ ':' :: (paddedText 2 first.minute).toList =
        (paddedText 2 second.hour).toList ++ ':' :: (paddedText 2 second.minute).toList ↔
      first.hour = second.hour ∧ first.minute = second.minute := by
  rw [Text.cut_inj (notMem_paddedText rfl) (notMem_paddedText rfl), String.toList_inj,
    String.toList_inj, (paddedText_injective 2).eq_iff, (paddedText_injective 2).eq_iff]

theorem date_eq_iff_fields : first.date = second.date ↔ first.date.month = second.date.month ∧
    first.date.day = second.date.day ∧ first.date.year = second.date.year := by
  cases first.date
  cases second.date
  rw [Date.mk.injEq]
  tauto

theorem dateLabel_yearly_eq_iff :
    dateLabel first .yearly .tooltip = dateLabel second .yearly .tooltip ↔
      first.date.year = second.date.year :=
  integerText_injective.eq_iff

/-! ### Titles by cadence -/

theorem toList_dateLabel_monthly : (dateLabel first .monthly .tooltip).toList =
    (monthName first.date.month).toList ++ ' ' :: (integerText first.date.year).toList := by
  have spelled : dateLabel first .monthly .tooltip =
    monthName first.date.month ++ " " ++ integerText first.date.year := rfl
  simp only [spelled, String.toList_append, String.reduceToList, List.append_assoc,
    List.cons_append, List.nil_append]

theorem dateLabel_monthly_eq_iff :
    dateLabel first .monthly .tooltip = dateLabel second .monthly .tooltip ↔
      first.date.month = second.date.month ∧ first.date.year = second.date.year := by
  rw [← String.toList_inj, toList_dateLabel_monthly, toList_dateLabel_monthly, month_cut_iff,
    year_iff]

theorem toList_dateLabel_daily : (dateLabel first .daily .tooltip).toList =
    (monthName first.date.month).toList ++ ' ' :: ((naturalText first.date.day).toList ++
      ',' :: ' ' :: (integerText first.date.year).toList) := by
  have spelled : dateLabel first .daily .tooltip = monthName first.date.month ++ " " ++
    naturalText first.date.day ++ ", " ++ integerText first.date.year := rfl
  simp only [spelled, String.toList_append, String.reduceToList, List.append_assoc,
    List.cons_append, List.nil_append]

theorem dateLabel_daily_eq_iff :
    dateLabel first .daily .tooltip = dateLabel second .daily .tooltip ↔
      first.date = second.date := by
  rw [← String.toList_inj, toList_dateLabel_daily, toList_dateLabel_daily, month_cut_iff,
    day_cut_iff, List.cons_inj_right, year_iff, date_eq_iff_fields]

theorem toList_dateLabel_subDaily : (dateLabel first .subDaily .tooltip).toList =
    (monthName first.date.month).toList ++ ' ' :: ((naturalText first.date.day).toList ++
      ',' :: ' ' :: ((integerText first.date.year).toList ++ ' ' ::
        ((paddedText 2 first.clock.hour).toList ++
          ':' :: (paddedText 2 first.clock.minute).toList))) := by
  have spelled : dateLabel first .subDaily .tooltip = monthName first.date.month ++ " " ++
    naturalText first.date.day ++ ", " ++ integerText first.date.year ++ " " ++
    (paddedText 2 first.clock.hour ++ ":" ++ paddedText 2 first.clock.minute) := rfl
  simp only [spelled, String.toList_append, String.reduceToList, List.append_assoc,
    List.cons_append, List.nil_append]

theorem dateLabel_subDaily_eq_iff :
    dateLabel first .subDaily .tooltip = dateLabel second .subDaily .tooltip ↔
      first.date = second.date ∧ first.clock.hour = second.clock.hour ∧
        first.clock.minute = second.clock.minute := by
  rw [← String.toList_inj, toList_dateLabel_subDaily, toList_dateLabel_subDaily, month_cut_iff,
    day_cut_iff, List.cons_inj_right, year_cut_iff, clock_iff, date_eq_iff_fields, and_assoc,
    and_assoc]

end Titles

/-! ## The least gap -/

/-- Two distinct samples leave a least gap, which settles the cadence. -/
theorem Sampling.ofCells_of_distinct {cells : List Json} {first second : Json}
    {here there : Instant} (few : cells.length ≤ Cadence.sampleCount)
    (firstMember : first ∈ cells) (secondMember : second ∈ cells)
    (read : Instant.ofCell? first = some here) (read' : Instant.ofCell? second = some there)
    (less : here.milliseconds < there.milliseconds) :
    ∃ gap ≤ there.milliseconds - here.milliseconds,
      Sampling.ofCells cells = .ofCadence (.ofGap gap) := by
  have all : cells.take Cadence.sampleCount = cells := List.take_of_length_le few
  have low := mem_sampledMoments (all.symm ▸ firstMember) read
  have high := mem_sampledMoments (all.symm ▸ secondMember) read'
  obtain ⟨gap, least, sampled⟩ := exists_least_of_nontrivial ⟨_, low, _, high, less.ne⟩
  have bound := least.2 ⟨_, low, _, high, less.ne, rfl⟩
  rw [abs_of_pos (sub_pos.mpr less)] at bound
  exact ⟨gap, bound, sampled⟩

/-! ## Shared titles -/

namespace Instant

/-- Whether an instant lies in a leap second, which is counted on after the second before it. -/
def InLeapSecond (instant : Instant) : Prop :=
  1000000000 ≤ instant.nanoseconds

/-- Whether two instants of a series with a cadence agree in everything that a title keeps.  A day
is as long as the least gap of a daily series, so only the leap second of a day merges with it. -/
def Merges (first second : Instant) : Cadence → Prop
  | .subDaily => first.seconds / 60 = second.seconds / 60
  | .daily => first.seconds / 86400 = second.seconds / 86400 ∧
      (first.InLeapSecond ∨ second.InLeapSecond)
  | .monthly => first.date.month = second.date.month ∧ first.date.year = second.date.year
  | .yearly => first.date.year = second.date.year
  | .weekly | .unknown => False

variable {first second : Instant}

theorem Merges.comm {cadence : Cadence} :
    first.Merges second cadence ↔ second.Merges first cadence := by
  cases cadence with
  | subDaily => exact eq_comm
  | daily => exact and_congr eq_comm or_comm
  | monthly => exact and_congr eq_comm eq_comm
  | yearly => exact eq_comm
  | weekly => exact Iff.rfl
  | unknown => exact Iff.rfl

theorem date_eq_iff : first.date = second.date ↔
    first.seconds / 86400 = second.seconds / 86400 :=
  Date.ofDays_injective.eq_iff

theorem minute_eq_iff : first.date = second.date ∧ first.clock.hour = second.clock.hour ∧
      first.clock.minute = second.clock.minute ↔
    first.seconds / 60 = second.seconds / 60 := by
  rw [date_eq_iff]
  simp only [clock]
  omega

/-- Instants a day apart fall on two days, unless the later one is in a leap second. -/
theorem inLeapSecond_of_day_eq (apart : Cadence.dayMilliseconds ≤
      second.milliseconds - first.milliseconds)
    (sameDay : first.seconds / 86400 = second.seconds / 86400) : second.InLeapSecond := by
  simp only [milliseconds, Cadence.dayMilliseconds, InLeapSecond] at *
  omega

theorem day_ne_of_apart (apart : 2 * Cadence.dayMilliseconds ≤
      second.milliseconds - first.milliseconds)
    (short : second.nanoseconds < 2000000000) :
    first.seconds / 86400 ≠ second.seconds / 86400 := by
  simp only [milliseconds, Cadence.dayMilliseconds] at *
  omega

/-- Two samples that are as far apart as the least gap share a title exactly when they merge. -/
theorem dateLabel_eq_iff_merges {gap : Int} (bound : gap ≤ second.milliseconds - first.milliseconds)
    (short : second.nanoseconds < 2000000000) :
    dateLabel first (.ofGap gap) .tooltip = dateLabel second (.ofGap gap) .tooltip ↔
      first.Merges second (.ofGap gap) := by
  unfold Cadence.ofGap
  split
  · exact (dateLabel_subDaily_eq_iff _ _).trans minute_eq_iff
  split
  · exact dateLabel_yearly_eq_iff _ _
  split
  · exact dateLabel_monthly_eq_iff _ _
  split
  · next week =>
      -- The titles of a weekly series are those of a daily one.
      refine (dateLabel_daily_eq_iff _ _).trans (iff_of_false ?_ not_false)
      rw [date_eq_iff]
      exact day_ne_of_apart (by simp only [Cadence.dayMilliseconds] at *; omega) short
  · next day _ _ _ =>
      refine (dateLabel_daily_eq_iff _ _).trans (date_eq_iff.trans ?_)
      constructor
      · intro sameDay
        exact ⟨sameDay, .inr (inLeapSecond_of_day_eq (by omega) sameDay)⟩
      · exact And.left

end Instant

/-- The title of a category that reads as an instant is its date. -/
theorem categoryLabel_of_instant {cell : Json} {fallback : String} {instant : Instant}
    {cadence : Cadence} {place : LabelPlace} (read : Instant.ofCell? cell = some instant) :
    categoryLabel cell fallback (.ofCadence cadence) place = dateLabel instant cadence place := by
  simp only [categoryLabel, Sampling.ofCadence, read, if_true]

/-- **Titles merge by minute, month and year.**  Among at most thirty categories, two that read as
instants in different milliseconds make the axis a time axis, and they get one title exactly when
they agree in everything that a title of the cadence keeps. -/
theorem categoryLabel_eq_iff_merges {cells : List Json} {first second : Json}
    {firstFallback secondFallback : String} {here there : Instant} (few : cells.length ≤ 30)
    (firstMember : first ∈ cells) (secondMember : second ∈ cells)
    (read : Instant.ofCell? first = some here) (read' : Instant.ofCell? second = some there)
    (apart : here.milliseconds ≠ there.milliseconds) :
    (Sampling.ofCells cells).isTimeSeries = true ∧
      (categoryLabel first firstFallback (Sampling.ofCells cells) .tooltip =
          categoryLabel second secondFallback (Sampling.ofCells cells) .tooltip ↔
        here.Merges there (Sampling.ofCells cells).cadence) := by
  rcases Int.lt_or_gt_of_ne apart with less | less
  · obtain ⟨gap, bound, sampled⟩ :=
      Sampling.ofCells_of_distinct few firstMember secondMember read read' less
    rw [sampled, categoryLabel_of_instant read, categoryLabel_of_instant read']
    exact ⟨rfl, Instant.dateLabel_eq_iff_merges bound (Instant.nanoseconds_lt_of_ofCell? read')⟩
  · obtain ⟨gap, bound, sampled⟩ :=
      Sampling.ofCells_of_distinct few secondMember firstMember read' read less
    rw [sampled, categoryLabel_of_instant read, categoryLabel_of_instant read']
    have later := Instant.dateLabel_eq_iff_merges bound (Instant.nanoseconds_lt_of_ofCell? read)
    exact ⟨rfl, eq_comm.trans (later.trans Instant.Merges.comm)⟩

/-- The first and the thirtieth of a month, and nothing between. -/
def january : List Json :=
  [.string "2024-01-01", .string "2024-01-30"]

theorem first_of_january :
    Instant.ofCell? (.string "2024-01-01") = some { seconds := 1704067200, nanoseconds := 0 } := by
  decide +kernel

theorem thirtieth_of_january :
    Instant.ofCell? (.string "2024-01-30") = some { seconds := 1706572800, nanoseconds := 0 } := by
  decide +kernel

theorem categoryLabel_eq_iff_merges_of_january :
    (Sampling.ofCells january).isTimeSeries = true ∧
      (categoryLabel (.string "2024-01-01") "" (Sampling.ofCells january) .tooltip =
          categoryLabel (.string "2024-01-30") "" (Sampling.ofCells january) .tooltip ↔
        Instant.Merges { seconds := 1704067200, nanoseconds := 0 }
          { seconds := 1706572800, nanoseconds := 0 } (Sampling.ofCells january).cadence) :=
  categoryLabel_eq_iff_merges (by decide) (.head _) (.tail _ (.head _)) first_of_january
    thirtieth_of_january (by decide)

theorem ofCells_january : Sampling.ofCells january = .ofCadence .monthly := by
  have sorted : ([1704067200000, 1706572800000] : List Int).mergeSort =
      [1704067200000, 1706572800000] := List.mergeSort_of_pairwise (by decide)
  have sampled : (january.take Cadence.sampleCount).filterMap (fun cell =>
      (Instant.ofCell? cell).map fun instant => (cell, instant)) =
      [(.string "2024-01-01", { seconds := 1704067200, nanoseconds := 0 }),
        (.string "2024-01-30", { seconds := 1706572800, nanoseconds := 0 })] := by
    show [Json.string "2024-01-01", Json.string "2024-01-30"].filterMap _ = _
    simp only [List.filterMap, first_of_january, thirtieth_of_january, Option.map_some]
  rw [Sampling.ofCells, sampled]
  show Sampling.ofCadence ((((Cadence.neighbourGaps
    ([1704067200000, 1706572800000] : List Int).mergeSort).filter (0 < ·)).min?.map
      Cadence.ofGap).getD _) = _
  rw [sorted]
  rfl

/-- Two days of one month are a monthly series when nothing lies between them, and their titles are
one text. -/
theorem titles_merge_in_january :
    january.length ≤ 30 ∧ (Sampling.ofCells january).isTimeSeries = true ∧
      january.map (fun cell => (Instant.ofCell? cell).map Instant.milliseconds) =
        [some 1704067200000, some 1706572800000] ∧
      january.map (fun cell => categoryLabel cell "" (Sampling.ofCells january) .tooltip) =
        ["Jan 2024", "Jan 2024"] := by
  rw [ofCells_january]
  refine ⟨by decide, rfl, ?_, ?_⟩
  · simp only [january, List.map, first_of_january, thirtieth_of_january, Option.map_some]
    rfl
  · simp only [january, List.map, categoryLabel_of_instant first_of_january,
      categoryLabel_of_instant thirtieth_of_january]
    decide +kernel

end ChartCompiler
