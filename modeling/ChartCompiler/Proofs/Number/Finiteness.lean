import ChartCompiler.Proofs.Number.Arithmetic
import ChartCompiler.Proofs.Number.Defined

/-!
# Infinite and undefined doubles

No difference or product is finite if an operand is not, and no quotient if the dividend is not.  So
a finite result tells that what it was computed from is finite as well.

A number is unsigned if it is neither negative nor undefined.  Products and quotients of positive
numbers are unsigned however they are rounded and even if they overflow.
-/

set_option autoImplicit false

namespace ChartCompiler

open Float.Model.UnpackedFloat

variable {left right : Float}

/-! ## Finite results -/

theorem isFinite_of_isFinite_pack {number : Float.Model.UnpackedFloat}
    (finite : (unpack .binary64 (pack .binary64 number)).isFinite = true) :
    number.isFinite = true := by
  cases number with
  | notANumber => exact finite
  | infinity sign => cases sign <;> exact finite
  | zero sign => rfl
  | finite sign mantissa exponent positive => rfl

/-- A finite difference has finite operands. -/
theorem isFinite_of_sub (finite : (left - right).isFinite = true) :
    left.isFinite = true ∧ right.isFinite = true := by
  have within : (sub .binary64 left.toModel.unpack right.toModel.unpack).isFinite = true :=
    isFinite_of_isFinite_pack finite
  show left.toModel.unpack.isFinite = true ∧ right.toModel.unpack.isFinite = true
  generalize left.toModel.unpack = minuend at within ⊢
  generalize right.toModel.unpack = subtrahend at within ⊢
  cases minuend <;> cases subtrahend <;> first | exact ⟨rfl, rfl⟩ | cases within | skip
  next sign sign' => cases sign <;> cases sign' <;> cases within

/-- A finite product has finite factors. -/
theorem isFinite_of_mul (finite : (left * right).isFinite = true) :
    left.isFinite = true ∧ right.isFinite = true := by
  have within : (mul .binary64 left.toModel.unpack right.toModel.unpack).isFinite = true :=
    isFinite_of_isFinite_pack finite
  show left.toModel.unpack.isFinite = true ∧ right.toModel.unpack.isFinite = true
  generalize left.toModel.unpack = multiplier at within ⊢
  generalize right.toModel.unpack = multiplicand at within ⊢
  cases multiplier <;> cases multiplicand <;> first | exact ⟨rfl, rfl⟩ | cases within

/-- A finite quotient has a finite dividend. -/
theorem isFinite_of_div (finite : (left / right).isFinite = true) : left.isFinite = true := by
  have within : (div .binary64 left.toModel.unpack right.toModel.unpack).isFinite = true :=
    isFinite_of_isFinite_pack finite
  show left.toModel.unpack.isFinite = true
  generalize left.toModel.unpack = dividend at within ⊢
  generalize right.toModel.unpack = divisor at within ⊢
  cases dividend <;> cases divisor <;> first | rfl | cases within

/-- A double whose magnitude stays below another double is finite. -/
theorem isFinite_of_abs_lt (less : left.abs < right) : left.isFinite = true := by
  have parts : left.abs.toModel.unpack =
      unpack .binary64 (pack .binary64 left.toModel.unpack.abs) := rfl
  rw [lt_iff_compare, parts] at less
  show left.toModel.unpack.isFinite = true
  generalize left.toModel.unpack = number at less ⊢
  generalize right.toModel.unpack = bound at less
  cases number with
  | notANumber => cases less
  | infinity sign =>
      have greatest : unpack .binary64 (pack .binary64 (infinity sign).abs) =
          .infinity .positive := by
        cases sign <;> rfl
      rw [greatest] at less
      rcases bound with (_ | _) | _ | _ | _ <;> cases less
  | zero sign => rfl
  | finite sign mantissa exponent positive => rfl

variable {sign : Sign} {mantissa : ℕ} {exponent : ℤ} {positive : 0 < mantissa}

/-- A sum with an infinite double is infinite. -/
theorem unpack_add_infinity (finite : left.isFinite = true)
    (read : right.toModel.unpack = .infinity sign) :
    (left + right).toModel.unpack = .infinity sign := by
  have parts : (left + right).toModel.unpack = unpack .binary64 (pack .binary64
    (add .binary64 left.toModel.unpack right.toModel.unpack)) := rfl
  have sum : add .binary64 left.toModel.unpack right.toModel.unpack = .infinity sign := by
    rw [read]
    rcases isFinite_iff.mp finite with ⟨sign', zero⟩ | ⟨sign', mantissa', exponent', _, nonzero⟩
    · rw [zero]
      rfl
    · rw [nonzero]
      rfl
  rw [parts, sum]
  cases sign <;> rfl

/-! ## Unsigned numbers -/

/-- Whether a number is neither negative nor undefined; a zero may have either sign. -/
def isUnsigned : Float.Model.UnpackedFloat → Bool
  | .zero _ | .infinity .positive | .finite .positive _ _ _ => true
  | _ => false

theorem isUnsigned_unpack_pack {number : Float.Model.UnpackedFloat}
    (unsigned : isUnsigned number = true) :
    isUnsigned (unpack .binary64 (pack .binary64 number)) = true := by
  cases number with
  | notANumber => cases unsigned
  | infinity sign =>
      cases sign with
      | negative => cases unsigned
      | positive => rfl
  | zero sign => rw [unpack_pack_zero, isUnsigned]
  | finite sign mantissa exponent positive =>
      cases sign with
      | negative => cases unsigned
      | positive =>
          have defined : unpack .binary64
              (pack .binary64 (.finite .positive mantissa exponent positive)) ≠ .notANumber :=
            defined_unpack_pack nofun
          obtain ⟨field, fraction, packed⟩ := pack_finite .binary64 mantissa exponent positive
          rw [packed] at defined ⊢
          simp only [unpack, unpackMantissa_packComponents, unpackExponent_packComponents,
            unpackSign_packComponents, Sign.ofBitVec_toBitVec] at defined ⊢
          split
          · split
            · rfl
            · next all some =>
              rw [if_pos all, if_neg some] at defined
              exact absurd rfl defined
          · split
            · split <;> rfl
            · rfl

theorem isUnsigned_roundWithAccuracy (mantissa : ℕ) (exponent : ℤ) (accuracy : Accuracy) :
    isUnsigned (roundWithAccuracy .binary64 .positive mantissa exponent accuracy) = true := by
  simp only [roundWithAccuracy]
  split <;> rfl

/-- **A positive multiple of an unsigned number is unsigned.** -/
theorem isUnsigned_mul (read : left.toModel.unpack = .finite .positive mantissa exponent positive)
    (unsigned : isUnsigned right.toModel.unpack = true) :
    isUnsigned (left * right).toModel.unpack = true := by
  have parts : (left * right).toModel.unpack = unpack .binary64 (pack .binary64
    (mul .binary64 left.toModel.unpack right.toModel.unpack)) := rfl
  rw [parts, read]
  apply isUnsigned_unpack_pack
  generalize right.toModel.unpack = factor at unsigned ⊢
  cases factor with
  | notANumber => cases unsigned
  | infinity sign =>
      cases sign with
      | negative => cases unsigned
      | positive => rfl
  | zero sign => rfl
  | finite sign mantissa' exponent' positive' =>
      cases sign with
      | negative => cases unsigned
      | positive => exact isUnsigned_roundWithAccuracy _ _ _

/-- A numeral has no minus sign. -/
theorem isUnsigned_ofScientific (coefficient : ℕ) (exponent : ℤ) :
    isUnsigned (ofScientific .binary64 coefficient exponent) = true := by
  rw [ofScientific]
  split
  · rfl
  · split
    · rfl
    · split
      · rfl
      · split <;> exact isUnsigned_roundWithAccuracy _ _ _

end ChartCompiler
