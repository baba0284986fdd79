import ChartCompiler.Proofs.Number.Exact

/-!
# Nearest whole numbers

Rounding a quotient to a whole number gives the nearest one, and of two nearest ones the even one
(`nearest_roundTiesToEven`).  A number that is whole already is not changed
(`Nearest.eq_of_whole`), and what goes to zero is at most one half (`Nearest.eq_zero_iff`).
-/

set_option autoImplicit false

namespace ChartCompiler

/-- A whole number is a nearest one, and it is even if there are two. -/
structure Nearest (number : ℚ) (whole : ℕ) : Prop where
  near : |(whole : ℚ) - number| ≤ 1 / 2
  even : |(whole : ℚ) - number| = 1 / 2 → Even whole

theorem Nearest.eq_of_whole {exact whole : ℕ} (nearest : Nearest exact whole) : whole = exact := by
  have close : |((whole - exact : ℤ) : ℚ)| < 1 := by
    push_cast
    exact nearest.near.trans_lt (by norm_num)
  have none : |(whole : ℤ) - exact| < 1 := by exact_mod_cast close
  exact Int.ofNat_inj.mp (sub_eq_zero.mp (Int.abs_lt_one_iff.mp none))

/-- Only what is at most one half has zero as its nearest whole number. -/
theorem Nearest.eq_zero_iff {number : ℚ} {whole : ℕ} (nearest : Nearest number whole) :
    whole = 0 ↔ number ≤ 1 / 2 := by
  obtain ⟨near, even⟩ := nearest
  constructor
  · rintro rfl
    rw [Nat.cast_zero, zero_sub, abs_neg] at near
    exact (le_abs_self number).trans near
  · intro small
    by_contra nonzero
    -- Then the whole number is one, which is not even, and zero is as near.
    have one_le : (1 : ℚ) ≤ whole := by exact_mod_cast Nat.pos_of_ne_zero nonzero
    have high := (abs_le.mp near).2
    have le_one : whole ≤ 1 := by
      have cast : (whole : ℚ) ≤ 1 := by linarith
      exact_mod_cast cast
    have one : whole = 1 := le_antisymm le_one (Nat.pos_of_ne_zero nonzero)
    subst one
    have half : number = 1 / 2 := by
      push_cast at high
      linarith
    have odd := even (by rw [half]; norm_num)
    exact absurd odd (by decide)

theorem abs_sub_div (whole numerator : ℕ) {denominator : ℕ} (positive : 0 < denominator) :
    |(whole : ℚ) - numerator / denominator| =
      (|(whole * denominator : ℤ) - numerator| : ℤ) / (denominator : ℚ) := by
  have bound : (0 : ℚ) < denominator := by exact_mod_cast positive
  have common : (whole : ℚ) - numerator / denominator =
      ((whole * denominator - numerator : ℤ) : ℚ) / denominator := by
    push_cast
    field_simp
  rw [common, abs_div, abs_of_pos bound, Int.cast_abs]

theorem nearest_roundTiesToEven (numerator : ℕ) {denominator : ℕ} (positive : 0 < denominator) :
    Nearest ((numerator : ℚ) / denominator) (roundTiesToEven numerator denominator) := by
  have bound : (0 : ℚ) < denominator := by exact_mod_cast positive
  have parts := Nat.div_add_mod numerator denominator
  have rest := Nat.mod_lt numerator positive
  have le_half (whole : ℕ) : |(whole : ℚ) - numerator / denominator| ≤ 1 / 2 ↔
      2 * |(whole * denominator : ℤ) - numerator| ≤ denominator := by
    rw [abs_sub_div _ _ positive, div_le_div_iff₀ bound two_pos, one_mul, mul_comm]
    exact_mod_cast Iff.rfl
  have eq_half (whole : ℕ) : |(whole : ℚ) - numerator / denominator| = 1 / 2 ↔
      2 * |(whole * denominator : ℤ) - numerator| = denominator := by
    rw [abs_sub_div _ _ positive, div_eq_div_iff bound.ne' two_ne_zero, one_mul, mul_comm]
    exact_mod_cast Iff.rfl
  rw [roundTiesToEven]
  generalize numerator / denominator = below at parts
  generalize numerator % denominator = part at parts rest
  have whole : (below * denominator : ℤ) - numerator = -part := by
    rw [← parts]
    push_cast
    ring
  split
  · next down =>
    refine ⟨(le_half _).mpr ?_, fun half => ?_⟩
    · rw [whole, abs_neg, Nat.abs_cast]
      omega
    · rw [eq_half, whole, abs_neg, Nat.abs_cast] at half
      exact Nat.even_iff.mpr (by omega)
  · next up =>
    have whole' : ((below + 1 : ℕ) * denominator : ℤ) - numerator = (denominator - part : ℕ) := by
      rw [Nat.cast_sub rest.le]
      push_cast
      linarith
    refine ⟨(le_half _).mpr ?_, fun half => ?_⟩
    · rw [whole', Nat.abs_cast]
      omega
    · rw [eq_half, whole', Nat.abs_cast] at half
      exact Nat.even_iff.mpr (by omega)

/-- The numeral of an exact number rounds its magnitude. -/
theorem nearest_nearestUnits_rat (places : ℕ) (value : ℚ) :
    Nearest (|value| * 10 ^ places) (Quantity.nearestUnits places value) := by
  have nearest := nearest_roundTiesToEven (value.num.natAbs * tenTo places) value.den_pos
  have magnitude : |value| = value.num.natAbs / value.den := by
    conv_lhs => rw [← Rat.num_div_den value]
    rw [abs_div, Nat.abs_cast, Nat.cast_natAbs, Int.cast_abs]
  rw [magnitude, div_mul_eq_mul_div]
  exact_mod_cast nearest

end ChartCompiler
