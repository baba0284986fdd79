import ChartCompiler.Axis.Table
import ChartCompiler.Proofs.Pivot.Table
import ChartCompiler.Proofs.Statistics.Percentile
import Mathlib.Algebra.Order.BigOperators.Group.List
import Mathlib.Algebra.Order.Group.Unbundled.Basic
import Mathlib.Order.Bounds.Image

/-!
# The range of a value axis

A value axis covers what is drawn on it.  Values that stand beside one another are covered by the
least interval that holds them all.  Stacked values are piled up series by series, upward from zero
those that are not negative and downward the others, so the axis has to hold the piles of the first
series, of the first two, and so on.  None of them reaches beyond the two complete piles of its
category, because a pile only grows (`Pivot.sum_above_mem`, `Pivot.sum_below_mem`); and the axis is
no longer than it has to be, because both of its ends are the height of a complete pile
(`AxisTable.valueRange_covers`).

Nothing is rounded here.
-/

set_option autoImplicit false

namespace ChartCompiler

/-! ## Least intervals -/

namespace Extent

/-- The numbers from one end of an extent to the other. -/
def interval (extent : Extent ℚ) : Set ℚ :=
  Set.Icc extent.min extent.max

/-- An extent is the least interval that holds some numbers. -/
def Encloses (extent : Extent ℚ) (held : Set ℚ) : Prop :=
  IsLeast {interval : Set ℚ | (∃ low high, interval = Set.Icc low high) ∧ held ⊆ interval}
    extent.interval

variable {extent : Extent ℚ} {held : Set ℚ}

theorem encloses_of_ends (least : IsLeast held extent.min) (greatest : IsGreatest held extent.max) :
    extent.Encloses held := by
  refine ⟨⟨⟨_, _, rfl⟩, fun value member => ⟨least.2 member, greatest.2 member⟩⟩, ?_⟩
  rintro _ ⟨⟨low, high, rfl⟩, inside⟩
  exact Set.Icc_subset_Icc (inside least.1).1 (inside greatest.1).2

/-- Widening an extent to hold zero makes it the least interval that holds zero as well. -/
theorem withZero_ends (least : IsLeast held extent.min) (greatest : IsGreatest held extent.max) :
    IsLeast (insert 0 held) extent.withZero.min ∧
      IsGreatest (insert 0 held) extent.withZero.max := by
  have widened :
      extent.withZero = { min := Min.min extent.min 0, max := Max.max extent.max 0 } := by
    rw [withZero, Quantity.zero_rat]
    exact widen_exactly Rat.sqrt extent 0
  rw [widened, min_comm, max_comm]
  exact ⟨least.insert 0, greatest.insert 0⟩

end Extent

/-! ## Piles -/

/-- The height of the pile above zero: the sum of the values that are not negative. -/
def heightAbove (values : List ℚ) : ℚ :=
  (values.filter (0 ≤ ·)).sum

/-- The height of the pile below zero: the sum of the negative values. -/
def heightBelow (values : List ℚ) : ℚ :=
  (values.filter (· < 0)).sum

section Heights

variable {values values' : List ℚ}

/-- Stacking values one after the other piles them up on both sides of zero. -/
theorem stackHeights_eq (values : List ℚ) :
    AxisTable.stackHeights values = (heightAbove values, heightBelow values) := by
  induction values using List.reverseRecOn with
  | nil => exact Prod.ext Quantity.zero_rat Quantity.zero_rat
  | append_singleton values value ih =>
      rw [AxisTable.stackHeights] at ih ⊢
      rw [List.foldl_append, ih, List.foldl_cons, List.foldl_nil, Quantity.zero_rat, heightAbove,
        heightBelow, heightAbove, heightBelow, List.filter_append, List.filter_append]
      by_cases above : 0 ≤ value
      · simp [above, not_lt.mpr above]
      · simp [above, not_le.mp above]

/-- A pile is at least as high as what it is made of. -/
theorem heightAbove_mono (part : values.Sublist values') :
    heightAbove values ≤ heightAbove values' := by
  refine (part.filter _).sum_le_sum fun _ member => ?_
  exact of_decide_eq_true (List.mem_filter.mp member).2

theorem heightBelow_anti (part : values.Sublist values') :
    heightBelow values' ≤ heightBelow values := by
  induction part with
  | slnil => exact le_rfl
  | cons value part ih =>
      rw [heightBelow, List.filter_cons]
      split
      · next below =>
          rw [List.sum_cons]
          exact (add_le_of_nonpos_left (of_decide_eq_true below).le).trans ih
      · exact ih
  | cons_cons value part ih =>
      rw [heightBelow, heightBelow, List.filter_cons, List.filter_cons]
      split
      · rw [List.sum_cons, List.sum_cons]
        exact add_le_add_right ih value
      · exact ih

theorem heightAbove_nonneg (values : List ℚ) : 0 ≤ heightAbove values :=
  heightAbove_mono values.nil_sublist

theorem heightBelow_nonpos (values : List ℚ) : heightBelow values ≤ 0 :=
  heightBelow_anti values.nil_sublist

end Heights

/-! ## Ranges -/

namespace Pivot

/-- The table of the first series. -/
def firstSeries (pivot : Pivot ℚ) (count : ℕ) : Pivot ℚ :=
  { pivot with series := pivot.series.take count, cells := pivot.cells.take count }

/-- The heights of the two complete piles of each category. -/
def pileHeights (pivot : Pivot ℚ) : Set ℚ :=
  {height | ∃ category < pivot.categories.length,
    height = heightAbove (pivot.column category) ∨ height = heightBelow (pivot.column category)}

/-- A range holds the piles of some series while they grow, and it is no longer than that. -/
structure Holds (pivot : Pivot ℚ) (range : Extent ℚ) : Prop where
  /-- The pile of the first series above zero lies in the range. -/
  above : ∀ category < pivot.categories.length, ∀ count,
    heightAbove ((pivot.firstSeries count).column category) ∈ range.interval
  /-- The pile of the first series below zero lies in the range. -/
  below : ∀ category < pivot.categories.length, ∀ count,
    heightBelow ((pivot.firstSeries count).column category) ∈ range.interval
  /-- The lower end is the height of a complete pile. -/
  lowest : range.min ∈ pivot.pileHeights
  /-- The upper end is the height of a complete pile. -/
  highest : range.max ∈ pivot.pileHeights

variable {pivot : Pivot ℚ} {range : Extent ℚ}

theorem column_firstSeries_sublist (pivot : Pivot ℚ) (count category : ℕ) :
    ((pivot.firstSeries count).column category).Sublist (pivot.column category) :=
  (List.take_sublist count pivot.cells).filterMap _

theorem mem_values {value : ℚ} :
    value ∈ pivot.values ↔ ∃ series category, pivot.cell? series category = some (some value) := by
  simp only [values, List.mem_filterMap, List.mem_flatten, id_eq, exists_eq_right, cell?,
    Option.bind_eq_some_iff]
  constructor
  · rintro ⟨row, there, member⟩
    obtain ⟨series, atRow⟩ := List.mem_iff_getElem?.mp there
    obtain ⟨category, atColumn⟩ := List.mem_iff_getElem?.mp member
    exact ⟨series, category, row, atRow, atColumn⟩
  · rintro ⟨series, category, row, atRow, atColumn⟩
    exact ⟨row, List.mem_of_getElem? atRow, List.mem_of_getElem? atColumn⟩

theorem mem_stackEnds {height : ℚ} :
    height ∈ AxisTable.stackEnds pivot ↔ height ∈ pivot.pileHeights := by
  simp only [AxisTable.stackEnds, List.mem_flatMap, List.mem_range, stackHeights_eq,
    List.mem_cons, List.not_mem_nil, or_false]
  rfl

/-- The complete piles of all categories enclose the piles of the first series. -/
theorem holds_of_ends (least : IsLeast pivot.pileHeights range.min)
    (greatest : IsGreatest pivot.pileHeights range.max) : pivot.Holds range where
  above category inside count := by
    have part := column_firstSeries_sublist pivot count category
    refine ⟨?_, (heightAbove_mono part).trans (greatest.2 ⟨category, inside, .inl rfl⟩)⟩
    calc
      range.min ≤ heightBelow (pivot.column category) := least.2 ⟨category, inside, .inr rfl⟩
      _ ≤ 0 := heightBelow_nonpos _
      _ ≤ _ := heightAbove_nonneg _
  below category inside count := by
    have part := column_firstSeries_sublist pivot count category
    refine ⟨(least.2 ⟨category, inside, .inr rfl⟩).trans (heightBelow_anti part), ?_⟩
    calc
      _ ≤ 0 := heightBelow_nonpos _
      _ ≤ heightAbove (pivot.column category) := heightAbove_nonneg _
      _ ≤ range.max := greatest.2 ⟨category, inside, .inl rfl⟩
  lowest := least.1
  highest := greatest.1

end Pivot

namespace AxisTable

variable {data : AxisTable ℚ}

/-- Some values have a range, and one that is widened to hold zero. -/
theorem exists_rangeOf {values : List ℚ} (held : Set ℚ) (some : held.Nonempty)
    (members : ∀ value, value ∈ values ↔ value ∈ held) :
    ∃ range, rangeOf values false = .some range ∧ rangeOf values true = .some range.withZero ∧
      IsLeast held range.min ∧ IsGreatest held range.max := by
  obtain rfl : {value | value ∈ values} = held := Set.ext members
  rcases Extent.of_exactly Rat.sqrt values with ⟨rfl, -⟩ | ⟨range, found, ends⟩
  · obtain ⟨value, member⟩ := some
    cases member
  · have found : Extent.of values = .some range := found
    exact ⟨range, found, congrArg (Option.map Extent.withZero) found, ends⟩

/-- **The value axis covers what is drawn on it, and no more.**  A table has to hold a value. -/
theorem valueRange_covers {series category : ℕ} {value : ℚ}
    (inside : category < data.pivot.categories.length)
    (present : data.pivot.cell? series category = some (some value)) :
    ∃ beside stacked : Extent ℚ,
      data.valueRange false false = some beside ∧ data.valueRange true false = some stacked ∧
      beside.Encloses
        {value | ∃ series category, data.pivot.cell? series category = some (some value)} ∧
      data.pivot.Holds stacked ∧
      (∃ wider, data.valueRange false true = some wider ∧
        wider.Encloses (insert 0 {value |
          ∃ series category, data.pivot.cell? series category = some (some value)})) ∧
      ∃ wider, data.valueRange true true = some wider ∧
        wider.Encloses (insert 0 stacked.interval) := by
  obtain ⟨beside, found, found', least, greatest⟩ :=
    exists_rangeOf {value | ∃ series category,
      data.pivot.cell? series category = some (some value)} ⟨value, series, category, present⟩
      fun _ => Pivot.mem_values
  obtain ⟨stacked, stack, stack', lowest, highest⟩ :=
    exists_rangeOf data.pivot.pileHeights ⟨_, category, inside, .inl rfl⟩
      fun _ => Pivot.mem_stackEnds
  have ends := Extent.withZero_ends least greatest
  have between : stacked.min ≤ stacked.max := lowest.2 highest.1
  have ends' : IsLeast (insert 0 stacked.interval) stacked.withZero.min ∧
      IsGreatest (insert 0 stacked.interval) stacked.withZero.max :=
    Extent.withZero_ends (isLeast_Icc between) (isGreatest_Icc between)
  refine ⟨beside, stacked, found, stack, Extent.encloses_of_ends least greatest,
    Pivot.holds_of_ends lowest highest, ⟨_, found', ?_⟩, _, stack', ?_⟩
  · exact Extent.encloses_of_ends ends.1 ends.2
  · exact Extent.encloses_of_ends ends'.1 ends'.2

/-- One category with values on both sides of zero, in three series. -/
def threeSeries : AxisTable ℚ :=
  { fields := { category := "x", value := "value", series := some "s" }
    pivot :=
      { categories := ["a"]
        categoryCells := [.string "a"]
        series := ["p", "q", "r"]
        cells := [[some 3], [some 4], [some (-2)]] }
    time := .untimed
    labels := ["a"]
    titles := ["a"] }

/-- Two values are piled up to seven, and one lies below zero. -/
theorem valueRange_covers_of_threeSeries :
    (0 < threeSeries.pivot.categories.length ∧
      threeSeries.pivot.cell? 2 0 = some (some (-2))) ∧
      ∃ stacked, threeSeries.valueRange true false = some stacked ∧
        threeSeries.pivot.Holds stacked ∧ stacked = { min := -2, max := 7 } := by
  have inside : 0 < threeSeries.pivot.categories.length := by decide
  have present : threeSeries.pivot.cell? 2 0 = some (some (-2)) := rfl
  obtain ⟨_, stacked, -, found, -, holds, -⟩ := valueRange_covers inside present
  refine ⟨⟨inside, present⟩, stacked, found, holds, ?_⟩
  have piles : threeSeries.valueRange true false = some { min := -2, max := 7 } := by
    decide +kernel
  exact Option.some.inj (found.symm.trans piles)

end AxisTable

end ChartCompiler
