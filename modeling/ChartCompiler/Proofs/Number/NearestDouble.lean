import ChartCompiler.Proofs.Number.Digits
import ChartCompiler.Proofs.Number.Places
import ChartCompiler.Proofs.Number.WholeDoubles

/-!
# Numerals as doubles

A numeral stands for a coefficient times a power of ten.  Short coefficients with short powers are
doubles themselves, and one operation on doubles rounds their product or quotient
(`roundedDigits_of_short`); all others are multiplied or divided as whole numbers and then rounded
(`roundedDigits_of_whole`).  Either way leading digits of the same number are rounded, so the double
depends on the number alone: numerals that spell one number are read as one double
(`scaledFloat_congr`), and a number within the range of doubles is read as a finite one
(`isFinite_scaledFloat`).
-/

set_option autoImplicit false

namespace ChartCompiler

open Float.Model.UnpackedFloat

/-! ## Powers of ten -/

theorem quotient_powerOfTen : ∀ power : Fin Float.exactlyRepresentablePowersOfTen.size,
    Float.exactlyRepresentablePowersOfTen[power].isFinite = true ∧
      (Binary.ofFloat Float.exactlyRepresentablePowersOfTen[power]).negative = false ∧
      (Binary.ofFloat Float.exactlyRepresentablePowersOfTen[power]).quotient.1 =
        10 ^ power.val *
          (Binary.ofFloat Float.exactlyRepresentablePowersOfTen[power]).quotient.2 := by
  decide +kernel

theorem powerOfTen_exact {power : ℕ} (small : power < Float.exactlyRepresentablePowersOfTen.size) :
    Float.exactlyRepresentablePowersOfTen[power].isFinite = true ∧
      valueOf Float.exactlyRepresentablePowersOfTen[power] = 10 ^ power := by
  obtain ⟨finite, unsigned, product⟩ := quotient_powerOfTen ⟨power, small⟩
  simp only [Fin.getElem_fin] at finite unsigned product
  generalize Float.exactlyRepresentablePowersOfTen[power] = value at *
  have positive : ((Binary.ofFloat value).quotient.2 : ℚ) ≠ 0 := by
    exact_mod_cast (Binary.ofFloat value).quotient_snd_pos.ne'
  refine ⟨finite, ?_⟩
  rw [valueOf_eq_quotient finite, unsigned, if_neg (by decide), div_eq_iff positive]
  exact_mod_cast product

/-! ## Operations on positive doubles -/

section Positive

variable {left right : Float} (finite : left.isFinite = true) (finite' : right.isFinite = true)
  (positive : 0 < valueOf left) (positive' : 0 < valueOf right)

theorem unpack_of_pos {value : Float} (finite : value.isFinite = true)
    (positive : 0 < valueOf value) :
    ∃ mantissa exponent nonzero,
      value.toModel.unpack = .finite .positive mantissa exponent nonzero ∧
        valueOf value = mantissa * 2 ^ exponent := by
  rcases isFinite_iff.mp finite with ⟨sign, read⟩ | ⟨sign, mantissa, exponent, nonzero, read⟩
  · rw [valueOf_of_zero read] at positive
    exact absurd positive (lt_irrefl 0)
  · cases sign with
    | positive => exact ⟨mantissa, exponent, nonzero, read, congrArg unpackedValue read⟩
    | negative =>
        rw [valueOf, read] at positive
        exact absurd positive (unpackedValue_neg nonzero).not_gt

include finite finite' positive positive'

theorem roundedDigits_mul_of_pos :
    RoundedDigits (valueOf left * valueOf right) .positive
      (mul .binary64 left.toModel.unpack right.toModel.unpack) := by
  obtain ⟨mantissa, exponent, nonzero, read, value⟩ := unpack_of_pos finite positive
  obtain ⟨mantissa', exponent', nonzero', read', value'⟩ := unpack_of_pos finite' positive'
  have long := long_mul_of_canonical nonzero nonzero' (canonical_of_unpack read)
    (canonical_of_unpack read')
  rw [value, value', read, read']
  exact roundedDigits_mul nonzero nonzero' .positive .positive long

theorem roundedDigits_div_of_pos :
    RoundedDigits (valueOf left / valueOf right) .positive
      (div .binary64 left.toModel.unpack right.toModel.unpack) := by
  obtain ⟨mantissa, exponent, nonzero, read, value⟩ := unpack_of_pos finite positive
  obtain ⟨mantissa', exponent', nonzero', read', value'⟩ := unpack_of_pos finite' positive'
  rw [value, value', read, read']
  exact roundedDigits_div nonzero nonzero' .positive .positive

end Positive

/-! ## Decimals -/

variable {coefficient : ℕ} {exponent : ℤ}

theorem ten_zpow_of_nonneg (nonneg : 0 ≤ exponent) :
    (10 : ℚ) ^ exponent = 10 ^ exponent.natAbs := by
  rw [← zpow_natCast, Int.natAbs_of_nonneg nonneg]

theorem mul_ten_zpow_of_neg (number : ℚ) (negative : exponent < 0) :
    number * 10 ^ exponent = number / 10 ^ exponent.natAbs := by
  have magnitude : exponent = -(exponent.natAbs : ℤ) := by omega
  conv_lhs => rw [magnitude]
  rw [zpow_neg, zpow_natCast, div_eq_mul_inv]

/-- A short coefficient and a short power are doubles, and one operation rounds. -/
theorem roundedDigits_of_short (positive : 0 < coefficient) (short : coefficient < 2 ^ 53)
    (few : exponent.natAbs ≤ 22) :
    ∃ parts, RoundedDigits (coefficient * 10 ^ exponent) .positive parts ∧
      (Float.ofScientific coefficient (decide (exponent < 0)) exponent.natAbs).toModel.unpack =
        unpack .binary64 (pack .binary64 parts) := by
  obtain ⟨finite, value⟩ := toFloat_exact coefficient short
  have listed : exponent.natAbs < Float.exactlyRepresentablePowersOfTen.size :=
    few.trans_lt (by decide)
  obtain ⟨finite', value'⟩ := powerOfTen_exact listed
  have above : 0 < valueOf coefficient.toUInt64.toFloat := by
    rw [value]
    exact_mod_cast positive
  have above' : 0 < valueOf Float.exactlyRepresentablePowersOfTen[exponent.natAbs] := by
    rw [value']
    positivity
  rw [Float.ofScientific, dif_pos ⟨short, few⟩]
  by_cases negative : exponent < 0
  · have rounded := roundedDigits_div_of_pos finite finite' above above'
    rw [value, value', ← mul_ten_zpow_of_neg _ negative] at rounded
    rw [if_pos (decide_eq_true negative)]
    exact ⟨_, rounded, rfl⟩
  · have rounded := roundedDigits_mul_of_pos finite finite' above above'
    rw [value, value', ← ten_zpow_of_nonneg (not_lt.mp negative)] at rounded
    rw [if_neg (by simpa using negative)]
    exact ⟨_, rounded, rfl⟩

/-- Otherwise whole numbers are multiplied or divided, and the result is rounded. -/
theorem roundedDigits_of_whole (positive : 0 < coefficient) (below : exponent ≤ 2 ^ 11)
    (above : -(2 ^ 11 + coefficient.log2) ≤ exponent) :
    RoundedDigits (coefficient * 10 ^ exponent) .positive
      (ofScientific .binary64 coefficient exponent) := by
  have notBelow : ¬ exponent < -(2 ^ Float.Model.Format.binary64.exponentBits + coefficient.log2) :=
    not_lt.mpr above
  rw [ofScientific, dif_neg positive.ne', if_neg (not_lt.mpr below), if_neg notBelow]
  by_cases nonneg : 0 ≤ exponent
  · have digits : 0 < coefficient <<< 53 := by
      rw [Nat.shiftLeft_eq]
      positivity
    have power : 0 < 10 ^ exponent.toNat := by positivity
    have long : 2 ^ 52 ≤ coefficient <<< 53 * 10 ^ exponent.toNat ∨ (-53 : ℤ) + 0 ≤ -1074 := by
      left
      calc 2 ^ 52 ≤ 1 * 2 ^ 53 * 1 := by norm_num
        _ ≤ coefficient * 2 ^ 53 * 10 ^ exponent.toNat :=
          Nat.mul_le_mul (Nat.mul_le_mul_right _ positive) power
        _ = coefficient <<< 53 * 10 ^ exponent.toNat := by rw [Nat.shiftLeft_eq]
    have rounded := roundedDigits_mul digits power .positive .positive long
    have same : ((coefficient <<< 53 : ℕ) : ℚ) * 2 ^ (-53 : ℤ) *
        ((10 ^ exponent.toNat : ℕ) * 2 ^ (0 : ℤ)) = coefficient * 10 ^ exponent := by
      have scale : (2 : ℚ) ^ 53 * 2 ^ (-53 : ℤ) = 1 := by norm_num
      have whole : (10 : ℚ) ^ exponent = 10 ^ exponent.toNat := by
        rw [← zpow_natCast, Int.toNat_of_nonneg nonneg]
      simp only [Nat.shiftLeft_eq, whole, Nat.cast_mul, Nat.cast_pow, Nat.cast_ofNat, zpow_zero,
        mul_one]
      rw [mul_assoc (coefficient : ℚ), scale, mul_one]
    rw [if_pos nonneg, ← same]
    exact rounded
  · have power : 0 < 10 ^ (-exponent).toNat := by positivity
    have rounded : RoundedDigits _ _ (div .binary64 (.finite .positive coefficient 0 positive)
        (.finite .positive (10 ^ (-exponent).toNat) 0 power)) :=
      roundedDigits_div positive power .positive .positive
    have same : (coefficient : ℚ) * 2 ^ (0 : ℤ) / ((10 ^ (-exponent).toNat : ℕ) * 2 ^ (0 : ℤ)) =
        coefficient * 10 ^ exponent := by
      have magnitude : exponent = -((-exponent).toNat : ℤ) := by omega
      conv_rhs => rw [magnitude, zpow_neg, zpow_natCast]
      rw [zpow_zero, mul_one, mul_one, Nat.cast_pow, Nat.cast_ofNat, div_eq_mul_inv]
    rw [if_neg nonneg, ← same]
    exact rounded

/-- **A numeral within the powers of ten is rounded from its own digits.** -/
theorem exists_roundedDigits (positive : 0 < coefficient) (below : exponent ≤ 2 ^ 11)
    (above : -(2 ^ 11 + coefficient.log2) ≤ exponent) :
    ∃ parts, RoundedDigits (coefficient * 10 ^ exponent) .positive parts ∧
      (Float.ofScientific coefficient (decide (exponent < 0)) exponent.natAbs).toModel.unpack =
        unpack .binary64 (pack .binary64 parts) := by
  by_cases short : coefficient < 2 ^ 53 ∧ exponent.natAbs ≤ 22
  · exact roundedDigits_of_short positive short.1 short.2
  · refine ⟨_, roundedDigits_of_whole positive below above, ?_⟩
    have signed : (if decide (exponent < 0) = true then Int.negOfNat exponent.natAbs
        else Int.ofNat exponent.natAbs) = exponent := by
      split
      · next negative =>
        have below := of_decide_eq_true negative
        rw [Int.negOfNat_eq]
        show -(exponent.natAbs : ℤ) = exponent
        omega
      · next nonneg =>
        exact Int.natAbs_of_nonneg (by simpa using nonneg)
    rw [Float.ofScientific, dif_neg short]
    simp only [signed]
    rfl

/-! ## The range of doubles -/

/-- The place of the first digit bounds a decimal on both sides. -/
theorem ten_zpow_le_mul (positive : 0 < coefficient) :
    (10 : ℚ) ^ (exponent + (digitsOf coefficient).length - 1) ≤ coefficient * 10 ^ exponent := by
  obtain ⟨others, length⟩ := Nat.exists_eq_add_of_lt (length_digitsOf_pos coefficient)
  rw [Nat.zero_add] at length
  have first : 10 ^ others ≤ coefficient := by
    rcases Nat.eq_zero_or_pos others with rfl | several
    · exact positive
    · refine not_lt.mp fun less => ?_
      have short := (length_digitsOf_le_iff several).mpr less
      omega
  have place : exponent + ((others + 1 : ℕ) : ℤ) - 1 = others + exponent := by push_cast; ring
  rw [length, place, zpow_add₀ (by norm_num), zpow_natCast]
  exact mul_le_mul_of_nonneg_right (by exact_mod_cast first) (by positivity)

theorem mul_lt_ten_zpow :
    (coefficient : ℚ) * 10 ^ exponent < 10 ^ (exponent + (digitsOf coefficient).length) := by
  have less : coefficient < 10 ^ (digitsOf coefficient).length :=
    lt_tenTo_length_digitsOf coefficient
  rw [zpow_add₀ (by norm_num), zpow_natCast, mul_comm]
  exact mul_lt_mul_of_pos_left (by exact_mod_cast less) (by positivity)

theorem length_digitsOf_le_log2 (number : ℕ) :
    (digitsOf number).length ≤ number.log2 + 1 := by
  refine (length_digitsOf_le_iff (Nat.succ_pos _)).mpr ?_
  exact Nat.lt_log2_self.trans_le (Nat.pow_le_pow_left (by decide) _)

theorem scaledFloat_of_pos (positive : 0 < coefficient) :
    scaledFloat coefficient exponent =
      if 310 < exponent + (digitsOf coefficient).length then 1 / 0
      else if exponent + (digitsOf coefficient).length < -330 then 0
      else Float.ofScientific coefficient (decide (exponent < 0)) exponent.natAbs :=
  if_neg positive.ne'

/-- **A decimal that is not far beyond the range of doubles is rounded from its own digits.** -/
theorem scaledFloat_of_leading (positive : 0 < coefficient)
    (below : ¬ 310 < exponent + (digitsOf coefficient).length)
    (above : ¬ exponent + (digitsOf coefficient).length < -330) :
    ∃ parts, RoundedDigits (coefficient * 10 ^ exponent) .positive parts ∧
      (scaledFloat coefficient exponent).toModel.unpack =
        unpack .binary64 (pack .binary64 parts) := by
  have some := length_digitsOf_pos coefficient
  have few := length_digitsOf_le_log2 coefficient
  have within : exponent ≤ 2 ^ 11 ∧ -(2 ^ 11 + coefficient.log2) ≤ exponent := by omega
  obtain ⟨parts, rounded, read⟩ := exists_roundedDigits positive within.1 within.2
  refine ⟨parts, rounded, ?_⟩
  rw [scaledFloat_of_pos positive, if_neg below, if_neg above]
  exact read

variable {coefficient' : ℕ} {exponent' : ℤ}

/-- **Numerals for one number are read as one double.** -/
theorem scaledFloat_congr
    (same : (coefficient : ℚ) * 10 ^ exponent = coefficient' * 10 ^ exponent') :
    scaledFloat coefficient exponent = scaledFloat coefficient' exponent' := by
  have power (exponent : ℤ) : (10 : ℚ) ^ exponent ≠ 0 := by positivity
  have zero : coefficient = 0 ↔ coefficient' = 0 := by
    rw [← Nat.cast_eq_zero (R := ℚ), ← Nat.cast_eq_zero (R := ℚ) (n := coefficient'),
      ← mul_eq_zero_iff_right (power exponent), same, mul_eq_zero_iff_right (power exponent')]
  rcases Nat.eq_zero_or_pos coefficient with none | positive
  · rw [scaledFloat, scaledFloat, if_pos none, if_pos (zero.mp none)]
  have positive' : 0 < coefficient' := Nat.pos_of_ne_zero (mt zero.mpr positive.ne')
  have leading : exponent + (digitsOf coefficient).length =
      exponent' + (digitsOf coefficient').length := by
    have low := (ten_zpow_le_mul positive).trans_lt (same.trans_lt mul_lt_ten_zpow)
    have high := (ten_zpow_le_mul positive').trans_lt (same.symm.trans_lt mul_lt_ten_zpow)
    rw [zpow_lt_zpow_iff_right₀ (by norm_num)] at low high
    omega
  by_cases above : 310 < exponent + (digitsOf coefficient).length
  · rw [scaledFloat_of_pos positive, scaledFloat_of_pos positive', ← leading, if_pos above,
      if_pos above]
  by_cases below : exponent + (digitsOf coefficient).length < -330
  · rw [scaledFloat_of_pos positive, scaledFloat_of_pos positive', ← leading, if_neg above,
      if_pos below, if_neg above, if_pos below]
  · obtain ⟨parts, rounded, read⟩ := scaledFloat_of_leading positive above below
    obtain ⟨parts', rounded', read'⟩ :=
      scaledFloat_of_leading positive' (leading ▸ above) (leading ▸ below)
    rw [← same] at rounded'
    obtain rfl := rounded.unique rounded'
    exact eq_of_unpacked (read.trans read'.symm)

theorem Numeral.toFloat_congr {first second : Numeral} (sign : first.negative = second.negative)
    (same : (first.coefficient : ℚ) * 10 ^ first.exponent =
      second.coefficient * 10 ^ second.exponent) : first.toFloat = second.toFloat := by
  rw [toFloat, toFloat, sign, scaledFloat_congr same]

/-- Decimals of more than 310 digits exceed every double. -/
theorem greatest_lt : ((2 ^ 53 - 1) * 2 ^ (971 : ℤ) : ℚ) < 10 ^ (310 : ℤ) := by
  have power : (2 : ℚ) ^ (205 * 5) = 2 ^ (54 : ℤ) * 2 ^ (971 : ℤ) :=
    (zpow_natCast 2 1025).symm.trans (two_zpow_add 54 971)
  calc ((2 ^ 53 - 1) * 2 ^ (971 : ℤ) : ℚ)
      < 2 ^ (54 : ℤ) * 2 ^ (971 : ℤ) := mul_lt_mul_of_pos_right (by norm_num) (by positivity)
    _ = (2 ^ 205) ^ 5 := by rw [← pow_mul, power]
    _ ≤ (10 ^ 62) ^ 5 := pow_le_pow_left₀ (by positivity) (by norm_num) 5
    _ = 10 ^ (310 : ℤ) := by rw [← pow_mul, ← zpow_natCast]; rfl

/-- A numeral for a number within the range of doubles is read as a finite double. -/
theorem isFinite_scaledFloat {other : Float} (finite : other.isFinite = true)
    (bounded : (coefficient : ℚ) * 10 ^ exponent ≤ |valueOf other|) :
    (scaledFloat coefficient exponent).isFinite = true := by
  rcases Nat.eq_zero_or_pos coefficient with none | positive
  · rw [scaledFloat, if_pos none]
    exact (ofNat_exact 0 (by decide)).1
  by_cases above : 310 < exponent + (digitsOf coefficient).length
  · have great : (10 : ℚ) ^ (310 : ℤ) ≤ |valueOf other| :=
      (zpow_le_zpow_right₀ (by norm_num) (by omega)).trans
        ((ten_zpow_le_mul positive).trans bounded)
    exact absurd (great.trans (abs_valueOf_le finite)) greatest_lt.not_ge
  by_cases below : exponent + (digitsOf coefficient).length < -330
  · rw [scaledFloat_of_pos positive, if_neg above, if_pos below]
    exact (ofNat_exact 0 (by decide)).1
  · obtain ⟨parts, rounded, read⟩ := scaledFloat_of_leading positive above below
    have rounds := RoundedTo.of_roundedDigits rounded read
    refine (rounds.finite_of_abs_le finite ?_).1
    rw [abs_of_nonneg (by simp only [Sign.apply]; positivity)]
    simpa [Sign.apply] using bounded

theorem Numeral.isFinite_toFloat {numeral : Numeral} {other : Float}
    (finite : other.isFinite = true)
    (bounded : (numeral.coefficient : ℚ) * 10 ^ numeral.exponent ≤ |valueOf other|) :
    numeral.toFloat.isFinite = true := by
  have magnitude := isFinite_scaledFloat finite bounded
  rw [toFloat]
  split
  · exact (neg_of_isFinite magnitude).1
  · exact magnitude

end ChartCompiler
