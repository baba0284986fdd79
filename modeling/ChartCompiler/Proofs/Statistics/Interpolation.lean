import ChartCompiler.Proofs.Number.Extended
import ChartCompiler.Proofs.Statistics.Percentile
import Mathlib.Tactic.FieldSimp
import Mathlib.Tactic.Linarith

/-!
# Interpolation between ranks

Between two neighbouring ranks the values of an ascending list are joined by a straight line, so
they never fall from one rank to a later one, whole or not (`atRank_mono`).  A percentile is the
value at a share of the last rank (`Extended.percentile_eq`).  It does not fall either, starts at
the first value, ends at the last one, and meets every value of the list at that value's own rank
(`Extended.percentiles_of_ascending`).

This holds of every percentile that is defined, the infinite ones included.
-/

set_option autoImplicit false

namespace ChartCompiler

/-! ## Values at ranks -/

section Ranks

variable {K : Type} [LinearOrder K] {sorted : List K}

/-- In an ascending list nothing is above what stands at a later position. -/
theorem le_of_getElem? (ascending : sorted.Pairwise (· ≤ ·)) {first second : Nat} {low high : K}
    (ordered : first ≤ second) (found : sorted[first]? = some low)
    (found' : sorted[second]? = some high) : low ≤ high := by
  obtain ⟨inside, rfl⟩ := List.getElem?_eq_some_iff.mp found
  obtain ⟨inside', rfl⟩ := List.getElem?_eq_some_iff.mp found'
  exact ascending.rel_get_of_le (Fin.mk_le_mk.mpr ordered)

variable [Field K] [IsStrictOrderedRing K] [FloorRing K] (root : K → K)

/-- Up to the last rank there is a value at every rank, between those at the nearest whole ranks. -/
theorem exists_atRank {rank : K} (inside : rank ≤ (sorted.length : K) - 1) (some : sorted ≠ []) :
    ∃ low high, sorted[⌊rank⌋₊]? = .some low ∧ sorted[⌈rank⌉₊]? = .some high ∧
      @atRank K (Quantity.exactly root) sorted rank =
        .some (low + (high - low) * Int.fract rank) := by
  have positive := List.length_pos_of_ne_nil some
  have above : ⌈rank⌉₊ < sorted.length := by
    have last : ((sorted.length - 1 : Nat) : K) = (sorted.length : K) - 1 := by
      rw [Nat.cast_sub positive, Nat.cast_one]
    have bound : ⌈rank⌉₊ ≤ sorted.length - 1 := Nat.ceil_le.mpr (last ▸ inside)
    omega
  have below : ⌊rank⌋₊ < sorted.length := (Nat.floor_le_ceil rank).trans_lt above
  refine ⟨sorted[⌊rank⌋₊], sorted[⌈rank⌉₊], List.getElem?_eq_getElem below,
    List.getElem?_eq_getElem above, ?_⟩
  rw [atRank_exactly, Int.floor_toNat, Int.ceil_toNat, List.getElem?_eq_getElem below,
    List.getElem?_eq_getElem above]

/-- The value at a whole rank. -/
theorem atRank_natCast {rank : Nat} (inside : rank < sorted.length) :
    @atRank K (Quantity.exactly root) sorted rank = some sorted[rank] := by
  rw [atRank_exactly, Int.floor_natCast, Int.ceil_natCast, Int.toNat_natCast, Int.fract_natCast,
    List.getElem?_eq_getElem inside]
  simp only [mul_zero, add_zero]

/-- The value at a later rank is not below. -/
theorem atRank_mono (ascending : sorted.Pairwise (· ≤ ·)) (some : sorted ≠ []) {rank rank' : K}
    (start : 0 ≤ rank) (ordered : rank ≤ rank') (finish : rank' ≤ (sorted.length : K) - 1) :
    ∃ low high, @atRank K (Quantity.exactly root) sorted rank = .some low ∧
      @atRank K (Quantity.exactly root) sorted rank' = .some high ∧ low ≤ high := by
  obtain ⟨below, above, atFloor, atCeil, value⟩ :=
    exists_atRank root (ordered.trans finish) some
  obtain ⟨below', above', atFloor', atCeil', value'⟩ := exists_atRank root finish some
  refine ⟨_, _, value, value', ?_⟩
  have step := le_of_getElem? ascending (Nat.floor_le_ceil rank) atFloor atCeil
  have step' := le_of_getElem? ascending (Nat.floor_le_ceil rank') atFloor' atCeil'
  rcases le_or_gt ⌈rank⌉₊ ⌊rank'⌋₊ with apart | together
  · -- A whole rank lies between the two.
    calc
      below + (above - below) * Int.fract rank ≤ above :=
        add_le_of_le_sub_left (mul_le_of_le_one_right (sub_nonneg.mpr step) (Int.fract_lt_one _).le)
      _ ≤ below' := le_of_getElem? ascending apart atCeil atFloor'
      _ ≤ below' + (above' - below') * Int.fract rank' :=
        le_add_of_nonneg_right (mul_nonneg (sub_nonneg.mpr step') (Int.fract_nonneg _))
  · -- Both lie on one line.
    have floors : ⌊rank⌋₊ ≤ ⌊rank'⌋₊ := Nat.floor_le_floor ordered
    have ceils : ⌈rank⌉₊ ≤ ⌈rank'⌉₊ := Nat.ceil_le_ceil ordered
    have near : ⌈rank⌉₊ ≤ ⌊rank⌋₊ + 1 := Nat.ceil_le_floor_add_one rank
    have near' : ⌈rank'⌉₊ ≤ ⌊rank'⌋₊ + 1 := Nat.ceil_le_floor_add_one rank'
    have sameFloor : ⌊rank⌋₊ = ⌊rank'⌋₊ := by omega
    have sameCeil : ⌈rank⌉₊ = ⌈rank'⌉₊ := by omega
    rw [← sameFloor, atFloor] at atFloor'
    rw [← sameCeil, atCeil] at atCeil'
    obtain rfl := Option.some.inj atFloor'
    obtain rfl := Option.some.inj atCeil'
    have fracts : Int.fract rank ≤ Int.fract rank' := by
      have whole : (⌊rank⌋ : K) = ⌊rank'⌋ := by
        rw [← natCast_floor_eq_intCast_floor start, sameFloor,
          natCast_floor_eq_intCast_floor (start.trans ordered)]
      rw [Int.fract, Int.fract, whole]
      exact sub_le_sub_right ordered _
    exact add_le_add_right (mul_le_mul_of_nonneg_left fracts (sub_nonneg.mpr step)) below

end Ranks

/-! ## Percentiles -/

namespace Extended

variable {percent percent' : Extended ℚ}

/-- The percentage that is meant: none is below zero or above a hundred. -/
def percentage : Extended ℚ → ℚ
  | number value => min 100 (max value 0)
  | infinity negative => if negative then 0 else 100
  | undefined => 0

theorem percentage_mem_Icc (percent : Extended ℚ) : percentage percent ∈ Set.Icc 0 100 := by
  cases percent with
  | number value => exact ⟨le_min (by norm_num) (le_max_right _ _), min_le_left _ _⟩
  | infinity negative => cases negative <;> simp [percentage]
  | undefined => simp [percentage]

theorem percentage_mono (ordered : percent ≤ percent') :
    percentage percent ≤ percentage percent' := by
  cases percent with
  | number value =>
      cases percent' with
      | number value' => exact min_le_min_left 100 (max_le_max_right 0 ordered)
      | infinity negative =>
          obtain rfl : negative = false := ordered
          exact (percentage_mem_Icc _).2
      | undefined => exact ordered.elim
  | infinity negative =>
      cases percent' with
      | number value =>
          obtain rfl : negative = true := ordered
          exact (percentage_mem_Icc _).1
      | infinity negative' =>
          have ordered : negative = true ∨ negative' = false := ordered
          rcases ordered with rfl | rfl
          · exact (percentage_mem_Icc _).1
          · exact (percentage_mem_Icc _).2
      | undefined => exact ordered.elim
  | undefined => cases percent' <;> exact ordered.elim

theorem percentage_of_le_zero (below : percent ≤ number 0) : percentage percent = 0 := by
  apply le_antisymm
  · simpa [percentage] using percentage_mono below
  · exact (percentage_mem_Icc _).1

theorem percentage_of_hundred_le (above : number 100 ≤ percent) : percentage percent = 100 := by
  apply le_antisymm
  · exact (percentage_mem_Icc _).2
  · simpa [percentage] using percentage_mono above

theorem clamp_percent (defined : percent ≤ percent) :
    Quantity.clamp Quantity.zero (Quantity.ofNat 100) percent = number (percentage percent) := by
  rw [ofNat_eq, zero_eq]
  cases percent with
  | number value =>
      rw [clamp_number, Quantity.clamp_rat, Quantity.zero_rat]
      rfl
  | infinity negative => cases negative <;> rfl
  | undefined => exact defined.elim

/-- The rank that a percentile has among some values. -/
def rankAmong (count : Nat) (percent : Extended ℚ) : ℚ :=
  percentage percent / 100 * ((count : ℚ) - 1)

section Ranks

variable {count : Nat}

theorem rankAmong_mono (positive : 0 < count) (ordered : percent ≤ percent') :
    rankAmong count percent ≤ rankAmong count percent' := by
  have last : (0 : ℚ) ≤ count - 1 := sub_nonneg.mpr (Nat.one_le_cast.mpr positive)
  have shares := div_le_div_of_nonneg_right (percentage_mono ordered) (by norm_num : (0 : ℚ) ≤ 100)
  exact mul_le_mul_of_nonneg_right shares last

theorem rankAmong_of_le_zero (below : percent ≤ number 0) : rankAmong count percent = 0 := by
  rw [rankAmong, percentage_of_le_zero below, zero_div, zero_mul]

theorem rankAmong_of_hundred_le (above : number 100 ≤ percent) :
    rankAmong count percent = count - 1 := by
  rw [rankAmong, percentage_of_hundred_le above, div_self (by norm_num), one_mul]

theorem rankAmong_mem_Icc (positive : 0 < count) (percent : Extended ℚ) :
    rankAmong count percent ∈ Set.Icc 0 ((count : ℚ) - 1) := by
  have last : (0 : ℚ) ≤ count - 1 := sub_nonneg.mpr (Nat.one_le_cast.mpr positive)
  obtain ⟨start, finish⟩ := percentage_mem_Icc percent
  rw [rankAmong]
  constructor
  · positivity
  · exact mul_le_of_le_one_left last ((div_le_one (by norm_num)).mpr finish)

/-- The percentile that belongs to a rank. -/
theorem rankAmong_share {rank : Nat} (inside : rank < count) :
    rankAmong count (number (100 * rank / ((count : ℚ) - 1))) = rank := by
  have most : (rank : ℚ) ≤ count - 1 := by
    rw [le_sub_iff_add_le]
    exact_mod_cast inside
  have start : (0 : ℚ) ≤ rank := Nat.cast_nonneg rank
  rcases start.eq_or_lt with none | some
  · simp [rankAmong, percentage, ← none]
  · have last : (0 : ℚ) < count - 1 := some.trans_le most
    have share : percentage (number (100 * rank / ((count : ℚ) - 1))) =
        100 * rank / ((count : ℚ) - 1) := by
      rw [percentage, max_eq_left (by positivity), min_eq_right]
      rw [div_le_iff₀ last]
      linarith
    rw [rankAmong, share]
    field_simp

end Ranks

section Percentiles

variable {sorted : List ℚ}

/-- A percentile is the value at its rank. -/
theorem percentile_eq (some : sorted ≠ []) (defined : percent ≤ percent) :
    percentile (sorted.map number) percent =
      (atRank sorted (rankAmong sorted.length percent)).map number := by
  cases sorted with
  | nil => exact absurd rfl some
  | cons first rest =>
      cases rest with
      | nil =>
          have only : atRank [first] ((0 : Nat) : ℚ) = .some first :=
            atRank_natCast Rat.sqrt (show 0 < [first].length from Nat.one_pos)
          have start : rankAmong [first].length percent = (0 : Nat) := by simp [rankAmong]
          rw [start, only]
          rfl
      | cons second rest =>
          have hundred : (Quantity.ofNat 100 : ℚ) = 100 := rfl
          have rank : Quantity.clamp Quantity.zero (Quantity.ofNat 100) percent /
              Quantity.ofNat 100 * Quantity.ofNat ((second :: rest).map number).length =
                number (rankAmong (first :: second :: rest).length percent) := by
            have last : (Quantity.ofNat ((second :: rest).map number).length : ℚ) =
                ((first :: second :: rest).length : ℚ) - 1 := by
              show ((((second :: rest).map number).length : Nat) : ℚ) = _
              rw [List.length_map]
              push_cast [List.length_cons]
              ring
            rw [clamp_percent defined, ofNat_eq, ofNat_eq, hundred, number_div (by norm_num),
              number_mul, last, rankAmong]
          exact (congrArg (atRank _) rank).trans (atRank_map_number (first :: second :: rest) _)

/-- The percentiles of some values run from the first value to the last one. -/
structure Percentiles (sorted : List ℚ) : Prop where
  /-- There is a value for every percentile that is defined, and a greater one has no smaller
  value. -/
  monotone : ∀ percent percent' : Extended ℚ, percent ≤ percent' →
    ∃ low high, percentile (sorted.map number) percent = some (number low) ∧
      percentile (sorted.map number) percent' = some (number high) ∧ low ≤ high
  /-- Nothing is below the first value or above the last one. -/
  between : ∀ (percent : Extended ℚ) (value first last : ℚ),
    percentile (sorted.map number) percent = some (number value) → percent ≤ percent →
      sorted.head? = some first → sorted.getLast? = some last → first ≤ value ∧ value ≤ last
  /-- From zero down it is the first value. -/
  start : ∀ percent : Extended ℚ, percent ≤ number 0 →
    percentile (sorted.map number) percent = sorted.head?.map number
  /-- From a hundred up it is the last value. -/
  finish : ∀ percent : Extended ℚ, number 100 ≤ percent →
    percentile (sorted.map number) percent = sorted.getLast?.map number
  /-- At the share of its rank it is the value itself. -/
  met : ∀ (rank : Nat) (value : ℚ), sorted[rank]? = some value →
    percentile (sorted.map number) (number (100 * rank / ((sorted.length : ℚ) - 1))) =
      some (number value)

/-- **The percentiles of ascending values rise from the first value to the last one and meet every
value at its rank.** -/
theorem percentiles_of_ascending (ascending : sorted.Pairwise (· ≤ ·)) (some : sorted ≠ []) :
    Percentiles sorted := by
  have positive : 0 < sorted.length := List.length_pos_of_ne_nil some
  have met (rank : Nat) (inside : rank < sorted.length) :
      atRank sorted (rank : ℚ) = .some sorted[rank] := atRank_natCast Rat.sqrt inside
  have monotone (percent percent' : Extended ℚ) (ordered : percent ≤ percent') :
      ∃ low high, percentile (sorted.map number) percent = .some (number low) ∧
        percentile (sorted.map number) percent' = .some (number high) ∧ low ≤ high := by
    obtain ⟨defined, defined'⟩ := le_self_of_le ordered
    obtain ⟨low, high, value, value', rising⟩ := atRank_mono Rat.sqrt ascending some
      (rankAmong_mem_Icc positive percent).1 (rankAmong_mono positive ordered)
      (rankAmong_mem_Icc positive percent').2
    rw [percentile_eq some defined, percentile_eq some defined']
    exact ⟨low, high, congrArg (Option.map number) value, congrArg (Option.map number) value',
      rising⟩
  have start (percent : Extended ℚ) (below : percent ≤ number 0) :
      percentile (sorted.map number) percent = sorted.head?.map number := by
    have first : rankAmong sorted.length percent = (0 : Nat) := by
      rw [rankAmong_of_le_zero below, Nat.cast_zero]
    rw [percentile_eq some (le_self_of_le below).1, first, met 0 positive, List.head?_eq_getElem?,
      List.getElem?_eq_getElem positive]
  have finish (percent : Extended ℚ) (above : number 100 ≤ percent) :
      percentile (sorted.map number) percent = sorted.getLast?.map number := by
    have last : rankAmong sorted.length percent = (sorted.length - 1 : Nat) := by
      rw [rankAmong_of_hundred_le above, Nat.cast_sub positive, Nat.cast_one]
    have inside : sorted.length - 1 < sorted.length := Nat.sub_one_lt_of_lt positive
    rw [percentile_eq some (le_self_of_le above).2, last, met _ inside, List.getLast?_eq_getElem?,
      List.getElem?_eq_getElem inside]
  constructor
  case monotone => exact monotone
  case start => exact start
  case finish => exact finish
  case between =>
    intro percent value first last found defined head tail
    obtain ⟨bottom, top⟩ := infinity_le defined
    obtain ⟨low, middle, atBottom, found', rising⟩ := monotone _ _ bottom
    obtain ⟨middle', high, found'', atTop, rising'⟩ := monotone _ _ top
    rw [start _ rfl, head] at atBottom
    rw [finish _ rfl, tail] at atTop
    cases atBottom
    cases atTop
    cases found.symm.trans found'
    cases found.symm.trans found''
    exact ⟨rising, rising'⟩
  case met =>
    intro rank value found
    obtain ⟨inside, rfl⟩ := List.getElem?_eq_some_iff.mp found
    rw [percentile_eq some (le_refl _ : _ ≤ (_ : ℚ)), rankAmong_share inside, met rank inside]
    rfl

end Percentiles

end Extended

end ChartCompiler
