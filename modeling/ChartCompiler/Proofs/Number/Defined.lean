import ChartCompiler.Proofs.Number.Rank
import ChartCompiler.Record.Basic

/-!
# Numbers in cells are defined

Cells hold numbers of two kinds.  A double is only accepted when it is finite, and the double that
an integer stands for is at worst infinite: neither rounding nor packing makes an undefined double
out of one that is defined (`defined_unpack_pack`).  So whatever a cell holds can be compared with
itself (`Cell.le_self_of_number`).
-/

set_option autoImplicit false

namespace ChartCompiler

open Float.Model.UnpackedFloat

theorem le_self_iff {value : Float} : value ≤ value ↔ value.toModel.unpack ≠ .notANumber := by
  refine (ranked_lineRank.le_iff value value).trans ((and_iff_left le_rfl).trans (not_congr ?_))
  rw [lineRank]
  cases value.toModel.unpack with
  | notANumber => simp [unpackedPlace]
  | infinity sign => cases sign <;> simp [unpackedPlace]
  | zero sign => simp [unpackedPlace]
  | finite sign => cases sign <;> simp [unpackedPlace]

/-! ## Packing and rounding -/

theorem defined_unpack_packComponents {sign : Sign} {field : BitVec 11} {fraction : BitVec 52}
    (notAll : field ≠ -1#11) :
    unpack .binary64 (packComponents .binary64 sign field fraction) ≠ .notANumber := by
  simp only [unpack, unpackMantissa_packComponents, unpackExponent_packComponents,
    unpackSign_packComponents, Sign.ofBitVec_toBitVec, if_neg notAll]
  split
  · split <;> nofun
  · nofun

/-- Packing keeps a number defined. -/
theorem defined_unpack_pack {number : Float.Model.UnpackedFloat} (defined : number ≠ .notANumber) :
    unpack .binary64 (pack .binary64 number) ≠ .notANumber := by
  have infinite (sign : Sign) :
      unpack .binary64 (packedInfinity .binary64 sign) = .infinity sign := by
    cases sign <;> rfl
  cases number with
  | notANumber => exact absurd rfl defined
  | infinity sign =>
      intro same
      cases (infinite sign).symm.trans same
  | zero sign =>
      have none : unpack .binary64 (pack .binary64 (.zero sign)) = .zero sign := by
        cases sign <;> rfl
      intro same
      cases none.symm.trans same
  | finite sign mantissa exponent positive =>
      let biased := (exponent + 1023 + 52).toNat
      show unpack .binary64 (ite (2 ^ 11 ≤ biased + 1) _
        (ite (mantissa.log2 + 1 = 53) _ _)) ≠ _
      split
      · intro same
        cases (infinite sign).symm.trans same
      · split
        · next inside _ =>
          apply defined_unpack_packComponents
          intro all
          have all : biased % 2 ^ 11 = 2047 := congrArg BitVec.toNat all
          omega
        · apply defined_unpack_packComponents
          decide

/-- Rounding gives a finite number. -/
theorem defined_roundWithAccuracy (sign : Sign) (mantissa : ℕ) (exponent : ℤ)
    (accuracy : Accuracy) :
    roundWithAccuracy .binary64 sign mantissa exponent accuracy ≠ .notANumber := by
  simp only [roundWithAccuracy]
  split <;> nofun

theorem defined_normalize (mantissa exponent : ℤ) (sign : Sign) :
    Float.Model.UnpackedFloat.normalize .binary64 mantissa exponent sign ≠ .notANumber := by
  rw [Float.Model.UnpackedFloat.normalize]
  split
  · exact defined_roundWithAccuracy _ _ _ _
  · nofun
  · exact defined_roundWithAccuracy _ _ _ _

theorem defined_mul_finite {number : Float.Model.UnpackedFloat} (defined : number ≠ .notANumber)
    (sign : Sign) (mantissa : ℕ) (exponent : ℤ) (positive : 0 < mantissa) :
    mul .binary64 number (.finite sign mantissa exponent positive) ≠ .notANumber := by
  cases number with
  | notANumber => exact absurd rfl defined
  | infinity => nofun
  | zero => nofun
  | finite => exact defined_roundWithAccuracy _ _ _ _

/-! ## Whole numbers -/

theorem defined_ofNat (count : ℕ) : (Float.ofNat count).toModel.unpack ≠ .notANumber := by
  show (Float.ofScientific count false 0).toModel.unpack ≠ _
  rw [Float.ofScientific]
  split
  · have one : (Float.ofBits 4607182418800017408).toModel.unpack =
        .finite .positive (2 ^ 52) (-52) (by decide) := rfl
    show unpack .binary64 (pack .binary64 (mul .binary64 count.toUInt64.toFloat.toModel.unpack
      (Float.ofBits 4607182418800017408).toModel.unpack)) ≠ _
    rw [one]
    apply defined_unpack_pack
    apply defined_mul_finite
    apply defined_unpack_pack
    exact defined_normalize _ _ _
  · show unpack .binary64 (pack .binary64
      (Float.Model.UnpackedFloat.ofScientific .binary64 count 0)) ≠ _
    apply defined_unpack_pack
    rw [Float.Model.UnpackedFloat.ofScientific]
    split
    · nofun
    · have small : ¬ (0 : ℤ) > 2 ^ Float.Model.Format.binary64.exponentBits := by decide
      rw [if_neg small]
      split
      · nofun
      · rw [if_pos le_rfl]
        apply defined_mul_finite
        nofun

theorem defined_ofInt (value : ℤ) : (Float.ofInt value).toModel.unpack ≠ .notANumber := by
  cases value with
  | ofNat count => exact defined_ofNat count
  | negSucc count =>
    apply defined_unpack_pack
    have defined := defined_ofNat count.succ
    cases read : (Float.ofNat count.succ).toModel.unpack with
    | notANumber => exact absurd read defined
    | _ => nofun

/-! ## Cells -/

theorem le_self_of_isFinite {value : Float} (finite : value.isFinite = true) : value ≤ value := by
  have defined : value.toModel.unpack.isFinite = true := finite
  apply le_self_iff.mpr
  intro undefined
  rw [undefined] at defined
  cases defined

/-- **The number in a cell is defined.** -/
theorem Cell.le_self_of_number {cell : Json} {value : Float} (read : number cell = some value) :
    value ≤ value := by
  cases cell with
  | integer whole =>
      obtain rfl := Option.some.inj read
      exact le_self_iff.mpr (defined_ofInt whole)
  | float double =>
      rw [number] at read
      split at read
      case isTrue finite =>
        obtain rfl := Option.some.inj read
        exact le_self_of_isFinite finite
      case isFalse => cases read
  | string text =>
      rw [number, textNumber] at read
      split at read
      case h_1 =>
        split at read
        case isTrue finite =>
          obtain rfl := Option.some.inj read
          exact le_self_of_isFinite finite
        case isFalse => cases read
      case h_2 => cases read
  | _ => cases read

end ChartCompiler
