import ChartCompiler.Proofs.Number.TotalOrder

/-!
# Sums of positive doubles

Rounding does not lose a positive sum: a double that is not negative and a positive one have a
positive sum (`zero_lt_add`), which is infinite when it is too great for a double.  The exact sum of
two finite doubles is a mantissa beside an exponent that is not below the least one.  Such a number
is rounded to a mantissa that is not zero, because no more digits are cut off than it has beyond
the 53 leading ones (`shiftToTargetExponent_bounds`).
-/

set_option autoImplicit false

namespace ChartCompiler

open Float.Model.UnpackedFloat

/-- Whether a number is greater than zero and, if it is finite, has a mantissa and an exponent that
are kept in the bits of a double. -/
def IsPositive : Float.Model.UnpackedFloat → Prop
  | .infinity .positive => True
  | .finite .positive mantissa exponent _ => mantissa < 2 ^ 53 ∧ -1074 ≤ exponent
  | _ => False

theorem isPositive_cases {number : Float.Model.UnpackedFloat} (positive : IsPositive number) :
    number = .infinity .positive ∨
      ∃ mantissa exponent some, number = .finite .positive mantissa exponent some ∧
        mantissa < 2 ^ 53 ∧ -1074 ≤ exponent := by
  cases number with
  | notANumber => cases positive
  | zero sign => cases positive
  | infinity sign =>
      cases sign with
      | negative => cases positive
      | positive => exact .inl rfl
  | finite sign mantissa exponent some =>
      cases sign with
      | negative => cases positive
      | positive => exact .inr ⟨mantissa, exponent, some, rfl, positive⟩

/-! ## Rounding -/

section Rounding

variable {mantissa : ℕ} {exponent : ℤ}

theorem mantissa_shiftRight (extended : ExtendedMantissa) (count : ℕ) :
    (extended >>> count).mantissa = extended.mantissa / 2 ^ count := by
  induction count with
  | zero => exact (Nat.div_one _).symm
  | succ count ih =>
      show (extended >>> count).mantissa / 2 = _
      rw [ih, Nat.div_div_eq_div_mul, pow_succ]

/-- What is left of a mantissa is not zero and has at most 53 digits. -/
theorem shiftToTargetExponent_bounds (positive : 0 < mantissa) (least : -1074 ≤ exponent) :
    let shifted := shiftToTargetExponent .binary64 mantissa exponent .exact
    0 < shifted.1.mantissa ∧ shifted.1.mantissa < 2 ^ 53 ∧ -1074 ≤ shifted.2 := by
  intro shifted
  let target : ℤ := max (mantissa.log2 + 1 + exponent - 53) (-1074)
  let count := (target - exponent).toNat
  have quotient : shifted.1.mantissa = mantissa / 2 ^ count := mantissa_shiftRight _ _
  have moved : shifted.2 = exponent + count := rfl
  have low : 2 ^ mantissa.log2 ≤ mantissa := Nat.log2_self_le positive.ne'
  have high : mantissa < 2 ^ (mantissa.log2 + 1) := Nat.lt_log2_self
  rw [quotient, moved]
  refine ⟨Nat.div_pos ?_ (by positivity), Nat.div_lt_of_lt_mul ?_, by omega⟩
  · exact (Nat.pow_le_pow_right two_pos (by omega)).trans low
  · rw [← pow_add]
    exact high.trans_le (Nat.pow_le_pow_right two_pos (by omega))

theorem mantissa_le_roundedMantissa (extended : ExtendedMantissa) :
    extended.mantissa ≤ extended.roundedMantissa := by
  obtain ⟨mantissa, _ | _, _ | _⟩ := extended
  · exact le_rfl
  · exact le_rfl
  · exact Nat.le_add_right _ _
  · exact Nat.le_add_right _ _

/-- Digits are cut off twice: rounding up can give the mantissa one more. -/
theorem isPositive_roundWithAccuracy (positive : 0 < mantissa) (least : -1074 ≤ exponent) :
    IsPositive (roundWithAccuracy .binary64 .positive mantissa exponent .exact) := by
  obtain ⟨some, -, bounded⟩ := shiftToTargetExponent_bounds positive least
  obtain ⟨some, short, bounded⟩ := shiftToTargetExponent_bounds
    (some.trans_le (mantissa_le_roundedMantissa _)) bounded
  simp only [roundWithAccuracy, dif_neg some.ne']
  exact ⟨short, bounded⟩

theorem isPositive_round (positive : 0 < mantissa) (least : -1074 ≤ exponent) :
    IsPositive (Float.Model.UnpackedFloat.round .binary64 .positive mantissa exponent) := by
  let target : ℤ := max (mantissa.log2 + 1 + exponent - 53) (-1074)
  let count := (exponent - target).toNat
  have lengthened : 0 < mantissa <<< count := by
    rw [Nat.shiftLeft_eq]
    positivity
  exact isPositive_roundWithAccuracy lengthened (show -1074 ≤ exponent - count by omega)

theorem isPositive_normalize {mantissa : ℤ} (positive : 0 < mantissa)
    (least : -1074 ≤ exponent) :
    IsPositive (Float.Model.UnpackedFloat.normalize .binary64 mantissa exponent .positive) := by
  have above : compare mantissa 0 = .gt := compare_gt_iff_gt.mpr positive
  simp only [Float.Model.UnpackedFloat.normalize, above]
  exact isPositive_round (by omega) least

end Rounding

/-! ## Packing -/

theorem isPositive_unpack_packComponents {field : BitVec 11} {fraction : BitVec 52}
    (notAll : field ≠ -1#11) (some : field ≠ 0#11 ∨ fraction ≠ 0#52) :
    IsPositive (unpack .binary64 (packComponents .binary64 .positive field fraction)) := by
  have parts (mantissa : ℕ) (exponent : ℤ) (positive : 0 < mantissa)
      (read : unpack .binary64 (packComponents .binary64 .positive field fraction) =
        .finite .positive mantissa exponent positive) :
      IsPositive (.finite .positive mantissa exponent positive) := by
    have canonical := (parts_of_unpack _ read).1
    exact ⟨canonical.mantissa_lt, canonical.least_le⟩
  simp only [unpack, unpackMantissa_packComponents, unpackExponent_packComponents,
    unpackSign_packComponents, Sign.ofBitVec_toBitVec, if_neg notAll] at parts ⊢
  split
  · next noField =>
    have someFraction := some.resolve_left (not_not_intro noField)
    rw [dif_neg someFraction]
    apply parts
    rw [if_pos noField, dif_neg someFraction]
  · next someField =>
    apply parts
    rw [if_neg someField]

/-- A positive number stays positive when it is packed into the bits of a double. -/
theorem isPositive_unpack_pack {number : Float.Model.UnpackedFloat} (positive : IsPositive number) :
    IsPositive (unpack .binary64 (pack .binary64 number)) := by
  have infinite : unpack .binary64 (packedInfinity .binary64 .positive) = .infinity .positive := rfl
  obtain rfl | ⟨mantissa, exponent, some, rfl, short, least⟩ := isPositive_cases positive
  · exact infinite ▸ positive
  · let biased := (exponent + 1023 + 52).toNat
    show IsPositive (unpack .binary64 (ite (2 ^ 11 ≤ biased + 1) _
      (ite (mantissa.log2 + 1 = 53) _ _)))
    split
    · rw [infinite]
      trivial
    · split
      · next inside _ =>
        have field : (BitVec.ofNat 11 biased).toNat = biased := by
          rw [BitVec.toNat_ofNat, Nat.mod_eq_of_lt (by omega)]
        apply isPositive_unpack_packComponents
        · intro all
          have all : biased = 2047 := field ▸ congrArg BitVec.toNat all
          omega
        · left
          intro none
          have none : biased = 0 := field ▸ congrArg BitVec.toNat none
          omega
      · next inside few =>
        have shorter : mantissa < 2 ^ 52 := by
          have log : mantissa.log2 < 53 := (Nat.log2_lt some.ne').mpr short
          exact (Nat.log2_lt some.ne').mp (by omega)
        apply isPositive_unpack_packComponents
        · decide
        · right
          intro none
          have none : mantissa % 2 ^ 52 = 0 := congrArg BitVec.toNat none
          rw [Nat.mod_eq_of_lt shorter] at none
          exact some.ne' none

/-! ## Positive doubles -/

theorem unpack_zero : (Quantity.zero : Float).toModel.unpack = .zero .positive := rfl

theorem zero_lt_iff {value : Float} :
    Quantity.zero < value ↔ IsPositive value.toModel.unpack := by
  rw [lt_iff_compare, unpack_zero]
  cases read : value.toModel.unpack with
  | notANumber => exact iff_of_false nofun id
  | zero sign => exact iff_of_false nofun id
  | infinity sign =>
      cases sign with
      | negative => exact iff_of_false nofun id
      | positive => exact iff_of_true rfl trivial
  | finite sign mantissa exponent some =>
      cases sign with
      | negative => exact iff_of_false nofun id
      | positive =>
          have canonical := canonical_of_unpack read
          exact iff_of_true rfl ⟨canonical.mantissa_lt, canonical.least_le⟩

theorem isPositive_or_zero {value : Float} (nonnegative : Quantity.zero ≤ value) :
    IsPositive value.toModel.unpack ∨ ∃ sign, value.toModel.unpack = .zero sign := by
  rw [le_iff_compare, unpack_zero] at nonnegative
  cases read : value.toModel.unpack with
  | zero sign => exact .inr ⟨sign, rfl⟩
  | notANumber =>
      rw [read] at nonnegative
      cases nonnegative
  | infinity sign =>
      rw [read] at nonnegative
      cases sign with
      | negative => cases nonnegative
      | positive => exact .inl trivial
  | finite sign mantissa exponent some =>
      rw [read] at nonnegative
      cases sign with
      | negative => cases nonnegative
      | positive =>
          have canonical := canonical_of_unpack read
          exact .inl ⟨canonical.mantissa_lt, canonical.least_le⟩

/-! ## Adding -/

theorem isPositive_add_finite {mantissa mantissa' : ℕ} {exponent exponent' : ℤ}
    {some : 0 < mantissa} {some' : 0 < mantissa'}
    (least : -1074 ≤ exponent) (least' : -1074 ≤ exponent') :
    IsPositive (add .binary64 (.finite .positive mantissa exponent some)
      (.finite .positive mantissa' exponent' some')) := by
  let common := min exponent exponent'
  have first : 0 < mantissa <<< (exponent - common).toNat := by
    rw [Nat.shiftLeft_eq]
    positivity
  apply isPositive_normalize
  · exact Int.add_pos_of_pos_of_nonneg (Int.natCast_pos.mpr first) (Int.natCast_nonneg _)
  · exact le_min least least'

theorem isPositive_add {left right : Float.Model.UnpackedFloat}
    (nonnegative : IsPositive left ∨ ∃ sign, left = .zero sign) (positive : IsPositive right) :
    IsPositive (add .binary64 left right) := by
  obtain rfl | ⟨mantissa', exponent', some', rfl, -, least'⟩ := isPositive_cases positive
  · rcases nonnegative with above | ⟨sign, rfl⟩
    · obtain rfl | ⟨mantissa, exponent, some, rfl, -⟩ := isPositive_cases above <;> trivial
    · trivial
  · rcases nonnegative with above | ⟨sign, rfl⟩
    · obtain rfl | ⟨mantissa, exponent, some, rfl, -, least⟩ := isPositive_cases above
      · trivial
      · exact isPositive_add_finite least least'
    · exact positive

/-- **A positive double keeps a sum positive.** -/
theorem zero_lt_add {left right : Float} (nonnegative : Quantity.zero ≤ left)
    (positive : Quantity.zero < right) : Quantity.zero < left + right := by
  rw [zero_lt_iff] at positive ⊢
  apply isPositive_unpack_pack
  exact isPositive_add (isPositive_or_zero nonnegative) positive

end ChartCompiler
