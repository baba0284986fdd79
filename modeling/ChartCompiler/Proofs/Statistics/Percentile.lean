import ChartCompiler.Statistics.Extent
import ChartCompiler.Proofs.Number.Exact
import ChartCompiler.Proofs.Sorting
import Mathlib.Data.List.Induction
import Mathlib.Data.List.Pairwise

/-!
# Percentiles and extents without rounding

Without rounding, the ends of an extent are the least and the greatest of its values, and a
percentile lies between two of the values that it is taken of.
-/

set_option autoImplicit false

namespace ChartCompiler

variable {K : Type} [Field K] [LinearOrder K] [FloorRing K] (root : K → K)

/-! ## Sorted values -/

theorem sortedFinite_perm (values : List K) :
    (@sortedFinite K (Quantity.exactly root) values).Perm values := by
  have finite : values.filter (Quantity.exactly root).isFinite = values :=
    List.filter_eq_self.mpr fun value _ => Quantity.isFinite_exactly root value
  unfold sortedFinite
  rw [finite]
  exact List.mergeSort_perm values _

theorem pairwise_sortedFinite (values : List K) :
    (@sortedFinite K (Quantity.exactly root) values).Pairwise (· ≤ ·) :=
  List.pairwise_mergeSort' (fun low high : K => low ≤ high) _

/-! ## Extents -/

namespace Extent

theorem widen_exactly (extent : Extent K) (value : K) :
    @widen K (Quantity.exactly root) extent value =
      { min := Min.min extent.min value, max := Max.max extent.max value } := by
  unfold widen
  rw [Quantity.least_exactly, Quantity.greatest_exactly]

/-- The ends of an extent are the least and the greatest of its values. -/
theorem of_exactly (values : List K) :
    (values = [] ∧ @Extent.of K (Quantity.exactly root) values = none) ∨
      ∃ extent, @Extent.of K (Quantity.exactly root) values = some extent ∧
        IsLeast {value | value ∈ values} extent.min ∧
        IsGreatest {value | value ∈ values} extent.max := by
  induction values using List.reverseRecOn with
  | nil => exact .inl ⟨rfl, rfl⟩
  | append_singleton earlier last ih =>
      have next : @Extent.of K (Quantity.exactly root) (earlier ++ [last]) =
          @step K (Quantity.exactly root) (@Extent.of K (Quantity.exactly root) earlier) last := by
        unfold Extent.of
        rw [List.foldl_append]
        rfl
      right
      rw [next]
      rcases ih with ⟨rfl, none⟩ | ⟨extent, some, least, greatest⟩
      · rw [none]
        refine ⟨{ min := last, max := last }, rfl, ?_⟩
        simp
      · rw [some]
        exact ⟨_, congrArg Option.some (widen_exactly root extent last),
          isLeast_concat least last, isGreatest_concat greatest last⟩

end Extent

/-! ## Percentiles -/

variable [IsStrictOrderedRing K]

theorem atRank_exactly (values : List K) (rank : K) :
    @atRank K (Quantity.exactly root) values rank =
      match values[⌊rank⌋.toNat]?, values[⌈rank⌉.toNat]? with
      | some low, some high => some (low + (high - low) * Int.fract rank)
      | _, _ => values.getLast? := by
  have whole (number : ℤ) : (Quantity.exactly root).toNat (number : K) = number.toNat :=
    congrArg Int.toNat (Int.floor_intCast number)
  have lower : (Quantity.exactly root).floor rank = (⌊rank⌋ : K) := rfl
  have upper : (Quantity.exactly root).ceil rank = (⌈rank⌉ : K) := rfl
  unfold atRank
  simp only [lower, upper, whole]
  rfl

variable {root} {sorted : List K}

/-- What is interpolated between two ranks lies between the values of the two. -/
theorem atRank_between (ascending : sorted.Pairwise (· ≤ ·)) {rank value : K}
    (found : @atRank K (Quantity.exactly root) sorted rank = some value) :
    ∃ low ∈ sorted, ∃ high ∈ sorted, low ≤ value ∧ value ≤ high := by
  rw [atRank_exactly] at found
  split at found
  · next low high atFloor atCeil =>
      obtain rfl := Option.some.inj found
      have ordered : low ≤ high := by
        obtain ⟨inside, rfl⟩ := List.getElem?_eq_some_iff.mp atFloor
        obtain ⟨inside', rfl⟩ := List.getElem?_eq_some_iff.mp atCeil
        have ranks := Int.toNat_le_toNat (Int.floor_le_ceil rank)
        exact ascending.rel_get_of_le (Fin.mk_le_mk.mpr ranks)
      have spread := sub_nonneg.mpr ordered
      refine ⟨low, List.mem_of_getElem? atFloor, high, List.mem_of_getElem? atCeil, ?_, ?_⟩
      · exact le_add_of_nonneg_right (mul_nonneg spread (Int.fract_nonneg rank))
      · exact add_le_of_le_sub_left (mul_le_of_le_one_right spread (Int.fract_lt_one rank).le)
  · have last := List.mem_of_getLast? found
    exact ⟨value, last, value, last, le_rfl, le_rfl⟩

/-- A percentile lies between two of the values. -/
theorem percentile_between (ascending : sorted.Pairwise (· ≤ ·)) {percent value : K}
    (found : @percentile K (Quantity.exactly root) sorted percent = some value) :
    ∃ low ∈ sorted, ∃ high ∈ sorted, low ≤ value ∧ value ≤ high := by
  unfold percentile at found
  split at found
  · cases found
  · next only =>
      cases found
      exact ⟨value, List.mem_singleton_self _, value, List.mem_singleton_self _, le_rfl, le_rfl⟩
  · exact atRank_between ascending found

end ChartCompiler
