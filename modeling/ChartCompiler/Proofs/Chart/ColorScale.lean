import ChartCompiler.Chart.Heatmap
import ChartCompiler.Proofs.Statistics.Interpolation

/-!
# Color scales

Whatever a heatmap is configured to do, its color scale can be drawn as soon as one of the values is
a number.  Around a center it reaches equally far to both sides and holds all values.  Without one
it stays inside the extent of the values, and it only collapses when they are all equal
(`Heatmap.scaleBounds_spans`).

The values may be infinite or undefined, and so may the center and the percentiles.
-/

set_option autoImplicit false

namespace ChartCompiler

open Extended

variable {values : List (Extended ℚ)}

/-- The finite values run from a least to a greatest one. -/
theorem exists_extent (some : ∃ value, number value ∈ values) :
    ∃ least greatest, Extent.of values = .some { min := number least, max := number greatest } ∧
      IsLeast {value | number value ∈ values} least ∧
      IsGreatest {value | number value ∈ values} greatest := by
  obtain ⟨value, member⟩ := some
  have member := mem_numbers.mpr member
  have set : {value | number value ∈ values} = {value | value ∈ numbers values} :=
    Set.ext fun _ => mem_numbers.symm
  rw [set, extentOf_eq]
  rcases Extent.of_exactly Rat.sqrt (numbers values) with ⟨empty, -⟩ | ⟨extent, found, ends⟩
  · rw [empty] at member
    cases member
  · have found : Extent.of (numbers values) = .some extent := found
    exact ⟨extent.min, extent.max, congrArg (Option.map extentOf) found, ends⟩

namespace Heatmap

/-- A color scale that runs from one number to another serves some values and a center. -/
structure Spans (values : List (Extended ℚ)) (center : Option (Extended ℚ)) (low high : ℚ) :
    Prop where
  ordered : low ≤ high
  /-- Around a center the scale is symmetric and holds all finite values. -/
  centered : ∀ middle, center = some (number middle) → high - middle = middle - low ∧
    ∀ value, number value ∈ values → low ≤ value ∧ value ≤ high
  /-- Without a center the scale lies inside the extent of the finite values. -/
  inside : (∀ middle, center ≠ some (number middle)) →
    ∃ least greatest, IsLeast {value | number value ∈ values} least ∧
      IsGreatest {value | number value ∈ values} greatest ∧ least ≤ low ∧ high ≤ greatest
  /-- Without a center the scale has a width unless all finite values are equal. -/
  spread : (∀ middle, center ≠ some (number middle)) →
    (∃ value other, number value ∈ values ∧ number other ∈ values ∧ value ≠ other) → low < high

section Spans

variable {center : Option (Extended ℚ)} {least greatest low high : ℚ}

theorem filter_center_eq_some_iff {middle : Extended ℚ} :
    center.filter Quantity.isFinite = some middle ↔
      ∃ value, middle = number value ∧ center = some (number value) := by
  rw [Option.filter_eq_some_iff]
  constructor
  · rintro ⟨rfl, finite⟩
    cases middle with
    | number value => exact ⟨value, rfl, rfl⟩
    | infinity negative => cases finite
    | undefined => cases finite
  · rintro ⟨value, rfl, rfl⟩
    exact ⟨rfl, rfl⟩

/-- The scale around a center. -/
theorem centeredOn_number (middle : ℚ) :
    ({ min := number least, max := number greatest } : Extent (Extended ℚ)).centeredOn
        (number middle) =
      { min := number (middle - max |greatest - middle| |middle - least|)
        max := number (middle + max |greatest - middle| |middle - least|) } := by
  simp only [Extent.centeredOn, number_sub, number_add, abs_number, greatest_number,
    Quantity.greatest_rat]
  rfl

theorem spans_around {middle : ℚ} (given : center = some (number middle))
    (isLeast : IsLeast {value | number value ∈ values} least)
    (isGreatest : IsGreatest {value | number value ∈ values} greatest) :
    Spans values center (middle - max |greatest - middle| |middle - least|)
      (middle + max |greatest - middle| |middle - least|) := by
  have nonneg : 0 ≤ max |greatest - middle| |middle - least| :=
    le_max_of_le_left (abs_nonneg _)
  have other {statement : Prop} (absent : ∀ middle, center ≠ some (number middle)) : statement :=
    absurd given (absent middle)
  refine ⟨by linarith, fun middle' given' => ?_, other, other⟩
  obtain rfl : middle = middle' := by
    rw [given] at given'
    cases given'
    rfl
  refine ⟨by ring, fun value member => ?_⟩
  have below := isLeast.2 member
  have above := isGreatest.2 member
  have reach := (le_abs_self (greatest - middle)).trans (le_max_left _ |middle - least|)
  have reach' := (le_abs_self (middle - least)).trans (le_max_right |greatest - middle| _)
  constructor <;> linarith

/-- A scale between two of the values' bounds. -/
theorem spans_inside (absent : ∀ middle, center ≠ some (number middle))
    (isLeast : IsLeast {value | number value ∈ values} least)
    (isGreatest : IsGreatest {value | number value ∈ values} greatest)
    (above : least ≤ low) (below : high ≤ greatest)
    (apart : low < high ∨ low = least ∧ high = greatest) : Spans values center low high where
  ordered := by
    rcases apart with apart | ⟨rfl, rfl⟩
    · exact apart.le
    · exact isGreatest.2 isLeast.1
  centered middle given := absurd given (absent middle)
  inside _ := ⟨least, greatest, isLeast, isGreatest, above, below⟩
  spread _ := by
    rintro ⟨value, other, member, member', differ⟩
    rcases apart with apart | ⟨rfl, rfl⟩
    · exact apart
    · refine lt_of_le_of_ne (isGreatest.2 isLeast.1) fun same => differ ?_
      have all {value : ℚ} (member : number value ∈ values) : value = low :=
        le_antisymm (same ▸ isGreatest.2 member) (isLeast.2 member)
      rw [all member, all member']

/-- The finite values in ascending order. -/
theorem sorted_numbers (values : List (Extended ℚ)) :
    ∃ sorted : List ℚ, sortedFinite values = sorted.map number ∧ sorted.Pairwise (· ≤ ·) ∧
      ∀ value, value ∈ sorted ↔ number value ∈ values := by
  refine ⟨sortedFinite (numbers values), sortedFinite_eq values,
    pairwise_sortedFinite Rat.sqrt (numbers values), fun value => ?_⟩
  rw [← mem_numbers]
  exact (sortedFinite_perm Rat.sqrt (numbers values)).mem_iff

/-- The scale between two percentiles. -/
theorem spans_percentiles {lower upper : Extended ℚ} (ordered : lower < upper)
    (absent : ∀ middle, center ≠ some (number middle))
    (isLeast : IsLeast {value | number value ∈ values} least)
    (isGreatest : IsGreatest {value | number value ∈ values} greatest) :
    ∃ low high, percentileBounds values lower upper =
        some { min := number low, max := number high } ∧ Spans values center low high := by
  obtain ⟨sorted, same, ascending, members⟩ := sorted_numbers values
  have member := (members least).mpr isLeast.1
  have some : sorted ≠ [] := List.ne_nil_of_mem member
  have rising := percentiles_of_ascending ascending some
  obtain ⟨low, high, atLower, atUpper, below⟩ := rising.monotone _ _ (le_of_less ordered)
  rw [percentileBounds, same, atLower, atUpper, boundsBetween]
  split
  · next apart =>
      have head := List.head?_eq_some_head some
      have tail := List.getLast?_eq_some_getLast some
      obtain ⟨defined, defined'⟩ := le_self_of_le (le_of_less ordered)
      have least' := isLeast.2 ((members _).mp (List.head_mem some))
      have greatest' := isGreatest.2 ((members _).mp (List.getLast_mem some))
      refine ⟨low, high, rfl, spans_inside absent isLeast isGreatest ?_ ?_ (.inl apart)⟩
      · exact least'.trans (rising.between _ _ _ _ atLower defined head tail).1
      · exact (rising.between _ _ _ _ atUpper defined' head tail).2.trans greatest'
  · have set : {value | number value ∈ sorted.map number} = {value | number value ∈ values} := by
      ext value
      refine Iff.trans ⟨fun mapped => ?_, List.mem_map_of_mem⟩ (members value)
      obtain ⟨other, there, same⟩ := List.mem_map.mp mapped
      cases same
      exact there
    have finite : ∃ value, number value ∈ sorted.map number := ⟨least, List.mem_map_of_mem member⟩
    obtain ⟨least', greatest', extent, ends⟩ := exists_extent finite
    rw [set] at ends
    obtain rfl := ends.1.unique isLeast
    obtain rfl := ends.2.unique isGreatest
    exact ⟨_, _, extent, spans_inside absent isLeast isGreatest le_rfl le_rfl (.inr ⟨rfl, rfl⟩)⟩

/-- **A color scale serves all values that it is drawn for.**  The percentiles that can bound it
rise from the least value to the greatest one. -/
theorem scaleBounds_spans {sorted : List ℚ} (ascending : sorted.Pairwise (· ≤ ·))
    (any : sorted ≠ []) {values : List (Extended ℚ)} (finite : ∃ value, number value ∈ values)
    (center : Option (Extended ℚ)) (usePercentiles : Bool) (lower upper : Extended ℚ) :
    Percentiles sorted ∧
      ∃ low high, scaleBounds values center usePercentiles lower upper =
          some { min := number low, max := number high } ∧ Spans values center low high := by
  refine ⟨percentiles_of_ascending ascending any, ?_⟩
  obtain ⟨least, greatest, extent, isLeast, isGreatest⟩ := exists_extent finite
  have whole (absent : ∀ middle, center ≠ some (number middle)) :
      Spans values center least greatest :=
    spans_inside absent isLeast isGreatest le_rfl le_rfl (.inr ⟨rfl, rfl⟩)
  unfold scaleBounds
  rw [extent]
  cases given : center.filter Quantity.isFinite with
  | some middle =>
      obtain ⟨value, rfl, given'⟩ := filter_center_eq_some_iff.mp given
      exact ⟨_, _, congrArg some (centeredOn_number value), spans_around given' isLeast isGreatest⟩
  | none =>
      have absent (middle : ℚ) : center ≠ some (number middle) := by
        intro same
        cases given.symm.trans (filter_center_eq_some_iff.mpr ⟨middle, rfl, same⟩)
      dsimp only
      split
      · next usable =>
          have ordered := of_decide_eq_true (Bool.and_eq_true_iff.mp usable).2
          exact spans_percentiles ordered absent isLeast isGreatest
      · exact ⟨least, greatest, rfl, whole absent⟩

/-- Values that are not all numbers, of which two are equal. -/
def mixedValues : List (Extended ℚ) :=
  [number 4, infinity false, number 1, undefined, number 1]

/-- The center is undefined and the upper percentile is infinite. -/
theorem scaleBounds_spans_of_mixed :
    (([1, 2, 4] : List ℚ).Pairwise (· ≤ ·) ∧ ([1, 2, 4] : List ℚ) ≠ [] ∧
      ∃ value, number value ∈ mixedValues) ∧
      Percentiles [1, 2, 4] ∧
      ∃ low high, scaleBounds mixedValues (some undefined) true (number 25) (infinity false) =
          some { min := number low, max := number high } ∧
        Spans mixedValues (some undefined) low high ∧ low < high := by
  have ascending : ([1, 2, 4] : List ℚ).Pairwise (· ≤ ·) := by decide +kernel
  have finite : ∃ value, number value ∈ mixedValues := ⟨4, List.mem_cons_self⟩
  obtain ⟨percentiles, low, high, bounds, spans⟩ := scaleBounds_spans ascending (by simp) finite
    (some undefined) true (number 25) (infinity false)
  refine ⟨⟨ascending, by simp, finite⟩, percentiles, low, high, bounds, spans, ?_⟩
  apply spans.spread
  · nofun
  · exact ⟨4, 1, by simp [mixedValues], by simp [mixedValues], by norm_num⟩

end Spans

end Heatmap

end ChartCompiler
