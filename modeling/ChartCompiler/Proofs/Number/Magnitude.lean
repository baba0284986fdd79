import Mathlib

/-!
# The magnitude of a double

The negative magnitude of a finite double is not above its magnitude.  Of an undefined double this
fails, as every comparison does.

A double is a sign, a field for the exponent and a fraction.  Changing the sign leaves the other two
alone, so a finite double and its negative are read as the same number with opposite signs.
-/

set_option autoImplicit false

namespace ChartCompiler

open Float.Model.UnpackedFloat

variable {format : Float.Model.Format}

/-- The parts of a packed double other than its sign do not depend on the sign. -/
theorem pack_finite (format : Float.Model.Format) (mantissa : Nat) (exponent : Int)
    (positive : 0 < mantissa) :
    ∃ field fraction, ∀ sign,
      pack format (.finite sign mantissa exponent positive) =
        packComponents format sign field fraction := by
  simp only [pack]
  split
  · exact ⟨_, _, fun sign => rfl⟩
  · split <;> exact ⟨_, _, fun sign => rfl⟩

/-- With another sign the same parts are read as the same number with that sign. -/
theorem unpack_packComponents {sign other : Sign} {field : BitVec format.exponentBits}
    {fraction : BitVec format.mantissaBitsWithoutImplicit} {mantissa : Nat} {exponent : Int}
    {positive : 0 < mantissa}
    (read : unpack format (packComponents format sign field fraction) =
      .finite sign mantissa exponent positive) :
    unpack format (packComponents format other field fraction) =
      .finite other mantissa exponent positive := by
  simp only [unpack, unpackMantissa_packComponents, unpackExponent_packComponents,
    unpackSign_packComponents, Sign.ofBitVec_toBitVec] at read ⊢
  split at read
  · split at read <;> cases read
  · next notAll =>
      rw [if_neg notAll]
      split at read
      · next noField =>
          rw [if_pos noField]
          split at read
          · cases read
          · next someFraction =>
              cases read
              rw [dif_neg someFraction]
      · next someField =>
          cases read
          rw [if_neg someField]

/-- A finite number that is read from a double is read again after it has been packed with any
sign. -/
theorem unpack_pack_finite {value : Float.Model} {sign : Sign} {mantissa : Nat} {exponent : Int}
    {positive : 0 < mantissa} (read : value.unpack = .finite sign mantissa exponent positive)
    (other : Sign) :
    unpack .binary64 (pack .binary64 (.finite other mantissa exponent positive)) =
      .finite other mantissa exponent positive := by
  obtain ⟨field, fraction, packed⟩ := pack_finite .binary64 mantissa exponent positive
  have bits : value.toBits.toBitVec = packComponents .binary64 sign field fraction := by
    rw [← packed, ← read]
    exact (pack_unpack_of_valid value.valid).symm
  have again : unpack .binary64 (packComponents .binary64 sign field fraction) =
      .finite sign mantissa exponent positive := by
    rw [← bits]
    exact read
  rw [packed]
  exact unpack_packComponents again

theorem neg_abs_le_abs {value : Float} (finite : value.isFinite) : -value.abs ≤ value.abs := by
  have defined : value.toModel.unpack.isFinite = true := finite
  have compared : (unpack .binary64 (pack .binary64 (unpack .binary64
      (pack .binary64 value.toModel.unpack.abs)).neg)).le
        (unpack .binary64 (pack .binary64 value.toModel.unpack.abs)) = true := by
    cases read : value.toModel.unpack with
    | notANumber => rw [read] at defined; cases defined
    | infinity sign => rw [read] at defined; cases defined
    | zero sign => cases sign <;> decide
    | finite sign mantissa exponent positive =>
        simp only [Float.Model.UnpackedFloat.abs, neg, unpack_pack_finite read]
        rfl
  exact decide_eq_true compared

end ChartCompiler
