import ChartCompiler.Guide.Scale
import ChartCompiler.Proofs.Number.Exact
import Mathlib.Order.Interval.Set.Defs
import Mathlib.Order.Monotone.Basic
import Mathlib.Tactic.GCongr
import Mathlib.Tactic.Ring

/-!
# Scales without rounding

Without rounding, a scale maps into its range, keeps the order of values, and maps what is beyond
the end of its domain to the end of its range.  A root scale does the same for any function that
increases strictly from zero on: all that is used of the square root is that it keeps the domain
from collapsing.
-/

set_option autoImplicit false

namespace ChartCompiler

variable {K : Type} [Field K] [LinearOrder K] [FloorRing K] (root : K → K)

/-! ## Linear scales -/

namespace Scale

variable (scale : Scale K)

theorem normalize_exactly (value : K) :
    @normalize K (Quantity.exactly root) scale value =
      if scale.domainEnd - scale.domainStart = 0 then 0
      else min 1 (max ((value - scale.domainStart) / (scale.domainEnd - scale.domainStart)) 0) := by
  have one : (Quantity.exactly root).ofNat 1 = (1 : K) := Nat.cast_one
  unfold normalize
  simp only [Quantity.zero_exactly, Quantity.clamp_exactly, Quantity.isFinite_exactly, one,
    Bool.not_true, Bool.false_eq_true, or_false]
  exact if_congr le_antisymm_iff.symm rfl rfl

theorem map_exactly (value : K) :
    @map K (Quantity.exactly root) scale value =
      scale.rangeStart + @normalize K (Quantity.exactly root) scale value *
        (scale.rangeEnd - scale.rangeStart) := rfl

theorem normalize_mem_Icc (value : K) :
    @normalize K (Quantity.exactly root) scale value ∈ Set.Icc 0 1 := by
  rw [normalize_exactly]
  split
  · exact ⟨le_rfl, zero_le_one⟩
  · exact ⟨le_min zero_le_one (le_max_right _ _), min_le_left _ _⟩

variable [IsStrictOrderedRing K] {scale}

/-- A scale stops at both ends of its range. -/
theorem map_mem_Icc (ordered : scale.rangeStart ≤ scale.rangeEnd) (value : K) :
    @map K (Quantity.exactly root) scale value ∈ Set.Icc scale.rangeStart scale.rangeEnd := by
  obtain ⟨above, below⟩ := normalize_mem_Icc root scale value
  have spread := sub_nonneg.mpr ordered
  rw [map_exactly]
  constructor
  · exact le_add_of_nonneg_right (mul_nonneg above spread)
  · exact add_le_of_le_sub_left (mul_le_of_le_one_left spread below)

/-- A scale keeps the order of values. -/
theorem monotone_map (domain : scale.domainStart ≤ scale.domainEnd)
    (range : scale.rangeStart ≤ scale.rangeEnd) :
    Monotone (@map K (Quantity.exactly root) scale) := by
  intro small large less
  have width := sub_nonneg.mpr domain
  have spread := sub_nonneg.mpr range
  rw [map_exactly, map_exactly, normalize_exactly, normalize_exactly]
  split
  · exact le_rfl
  · gcongr

/-- What is beyond the end of the domain is mapped to the end of the range. -/
theorem map_eq_rangeEnd {value : K} (domain : scale.domainStart < scale.domainEnd)
    (beyond : scale.domainEnd ≤ value) :
    @map K (Quantity.exactly root) scale value = scale.rangeEnd := by
  have width := sub_pos.mpr domain
  have full : 1 ≤ (value - scale.domainStart) / (scale.domainEnd - scale.domainStart) := by
    rw [one_le_div width]
    exact sub_le_sub_right beyond _
  rw [map_exactly, normalize_exactly, if_neg width.ne', max_eq_left (zero_le_one.trans full),
    min_eq_left full]
  ring

end Scale

/-! ## Root scales -/

theorem positiveRoot_exactly (value : K) :
    @positiveRoot K (Quantity.exactly root) value = root (max value 0) := by
  unfold positiveRoot
  rw [Quantity.greatest_exactly, Quantity.zero_exactly, Quantity.sqrt_exactly]

variable {root} (increasing : StrictMonoOn root (Set.Ici 0))

include increasing

theorem monotone_positiveRoot : Monotone (@positiveRoot K (Quantity.exactly root)) := by
  intro small large less
  rw [positiveRoot_exactly, positiveRoot_exactly]
  apply increasing.monotoneOn
  · exact le_max_right _ _
  · exact le_max_right _ _
  · exact max_le_max_right 0 less

/-- Roots tell a positive value from a smaller one. -/
theorem positiveRoot_lt {small large : K} (less : small < large) (positive : 0 < large) :
    @positiveRoot K (Quantity.exactly root) small <
      @positiveRoot K (Quantity.exactly root) large := by
  rw [positiveRoot_exactly, positiveRoot_exactly, max_eq_left positive.le]
  apply increasing
  · exact le_max_right _ _
  · exact positive.le
  · exact max_lt less positive

namespace RootScale

variable [IsStrictOrderedRing K] {scale : Scale K}

omit increasing in
theorem map_mem_Icc (scale : Scale K) (ordered : scale.rangeStart ≤ scale.rangeEnd) (value : K) :
    @map K (Quantity.exactly root) (@of K (Quantity.exactly root) scale) value ∈
      Set.Icc scale.rangeStart scale.rangeEnd := by
  let roots := (@of K (Quantity.exactly root) scale).inner
  have inside : roots.rangeStart ≤ roots.rangeEnd := ordered
  exact Scale.map_mem_Icc root inside _

theorem monotone_map (domain : scale.domainStart ≤ scale.domainEnd)
    (range : scale.rangeStart ≤ scale.rangeEnd) :
    Monotone (@map K (Quantity.exactly root) (@of K (Quantity.exactly root) scale)) := by
  let roots := (@of K (Quantity.exactly root) scale).inner
  have rooted := monotone_positiveRoot increasing
  have widths : roots.domainStart ≤ roots.domainEnd := rooted domain
  have inside : roots.rangeStart ≤ roots.rangeEnd := range
  exact (Scale.monotone_map root widths inside).comp rooted

theorem map_eq_rangeEnd {value : K} (domain : scale.domainStart < scale.domainEnd)
    (positive : 0 < scale.domainEnd) (beyond : scale.domainEnd ≤ value) :
    @map K (Quantity.exactly root) (@of K (Quantity.exactly root) scale) value =
      scale.rangeEnd := by
  let roots := (@of K (Quantity.exactly root) scale).inner
  have widths : roots.domainStart < roots.domainEnd := positiveRoot_lt increasing domain positive
  have beyond' : roots.domainEnd ≤ @positiveRoot K (Quantity.exactly root) value :=
    monotone_positiveRoot increasing beyond
  exact Scale.map_eq_rangeEnd root widths beyond'

end RootScale

end ChartCompiler
