import ChartCompiler.Proofs.Number.Rounding

/-!
# The arithmetic of doubles

A sum, a difference, a product or a quotient of finite doubles is the exact result rounded to a
double, or infinite when rounding carries it to `2 ^ 1024` (`RoundedTo`).  An operation works on
parts and rounds these; what is left to show is that the parts of a rounded number are those that
its bits give back (`unpack_pack_of_canonical`), and that each operation leaves enough digits to
round.
-/

set_option autoImplicit false

namespace ChartCompiler

open Float.Model.UnpackedFloat

/-! ## Packing -/

theorem finite_congr {sign : Sign} {mantissa mantissa' : ℕ} {exponent exponent' : ℤ}
    {positive : 0 < mantissa} {positive' : 0 < mantissa'} (same : mantissa = mantissa')
    (same' : exponent = exponent') :
    Float.Model.UnpackedFloat.finite sign mantissa exponent positive =
      .finite sign mantissa' exponent' positive' := by
  subst same same'
  rfl

/-- The bits of canonical parts give the parts back. -/
theorem unpack_pack_of_canonical {mantissa : ℕ} {exponent : ℤ}
    (canonical : Canonical mantissa exponent) (sign : Sign) (positive : 0 < mantissa) :
    unpack .binary64 (pack .binary64 (.finite sign mantissa exponent positive)) =
      .finite sign mantissa exponent positive := by
  obtain ⟨short, least, greatest, leading⟩ := canonical
  have bias : Float.Model.Format.exponentBias .binary64 = 1023 := rfl
  generalize biased_eq : (exponent + 1023 + 52).toNat = biased
  have field : (BitVec.ofNat 11 biased).toNat = biased := by
    rw [BitVec.toNat_ofNat, Nat.mod_eq_of_lt (by omega)]
  show unpack .binary64 (ite (2 ^ 11 ≤ (exponent + 1023 + 52).toNat + 1) _
    (ite (mantissa.log2 + 1 = 53)
      (packComponents .binary64 sign (BitVec.ofNat 11 (exponent + 1023 + 52).toNat)
        (BitVec.ofNat 52 mantissa))
      (packComponents .binary64 sign 0#11 (BitVec.ofNat 52 mantissa)))) = _
  rw [biased_eq, if_neg (by omega)]
  by_cases normal : 2 ^ 52 ≤ mantissa
  · have digits : mantissa.log2 = 52 := by
      have low := (Nat.le_log2 positive.ne').mpr normal
      have high := (Nat.log2_lt positive.ne').mpr short
      omega
    have notAll : BitVec.ofNat 11 biased ≠ -1#11 := by
      intro all
      have all : biased = 2047 := field ▸ congrArg BitVec.toNat all
      omega
    have notNone : BitVec.ofNat 11 biased ≠ 0#11 := by
      intro none
      have none : biased = 0 := field ▸ congrArg BitVec.toNat none
      omega
    have implicit : (1#1 ++ BitVec.ofNat 52 mantissa).toNat = mantissa := by
      rw [toNat_append_eq, BitVec.toNat_ofNat, BitVec.toNat_ofNat]
      omega
    rw [if_pos (by omega)]
    simp only [unpack, unpackMantissa_packComponents, unpackExponent_packComponents,
      unpackSign_packComponents, Sign.ofBitVec_toBitVec, if_neg notAll, if_neg notNone, bias, field]
    exact finite_congr implicit (by omega)
  · have subnormal : exponent = -1074 := leading.resolve_left normal
    have digits : mantissa.log2 < 52 := (Nat.log2_lt positive.ne').mpr (not_le.mp normal)
    have fraction : (BitVec.ofNat 52 mantissa).toNat = mantissa := by
      rw [BitVec.toNat_ofNat, Nat.mod_eq_of_lt (not_le.mp normal)]
    have some : BitVec.ofNat 52 mantissa ≠ 0#52 := by
      intro none
      have none : mantissa = 0 := fraction ▸ congrArg BitVec.toNat none
      omega
    have noField : (0#11 : BitVec 11) ≠ -1#11 := by decide
    rw [if_neg (by omega)]
    simp only [unpack, unpackMantissa_packComponents, unpackExponent_packComponents,
      unpackSign_packComponents, Sign.ofBitVec_toBitVec, if_neg noField, if_true, dif_neg some,
      bias]
    exact finite_congr fraction (by rw [subnormal]; rfl)

/-- An exponent beyond the greatest one makes a double infinite. -/
theorem unpack_pack_of_gt {mantissa : ℕ} {exponent : ℤ} (great : 971 < exponent) (sign : Sign)
    (positive : 0 < mantissa) :
    unpack .binary64 (pack .binary64 (.finite sign mantissa exponent positive)) =
      .infinity sign := by
  show unpack .binary64 (ite (2 ^ 11 ≤ (exponent + 1023 + 52).toNat + 1) _ _) = _
  rw [if_pos (by omega)]
  cases sign <;> rfl

/-! ## Rounded results -/

/-- A double is a number rounded: to a double that is next to it, or beyond the greatest one. -/
inductive RoundedTo (number : ℚ) (result : Float) : Prop where
  /-- The rounded number is a double. -/
  | finite (isFinite : result.isFinite = true) (rounds : RoundsTo number (valueOf result))
  /-- The rounded number is too great. -/
  | above (read : result.toModel.unpack = .infinity .positive) (rounded : ℚ)
    (rounds : RoundsTo number rounded) (great : 2 ^ 1024 ≤ rounded)
  /-- The negative of the rounded number is too great. -/
  | below (read : result.toModel.unpack = .infinity .negative) (rounded : ℚ)
    (rounds : RoundsTo number rounded) (great : rounded ≤ -2 ^ 1024)

variable {number : ℚ} {result : Float}

theorem RoundedTo.of_zero {sign : Sign} (read : result.toModel.unpack = .zero sign) :
    RoundedTo 0 result := by
  refine .finite (isFinite_iff.mpr (.inl ⟨sign, read⟩)) ?_
  rw [valueOf_of_zero read]
  exact RoundsTo.zero

theorem sign_apply_cast (sign : Sign) (mantissa : ℕ) :
    ((sign.apply mantissa : ℤ) : ℚ) = (sign.apply 1 : ℤ) * mantissa := by
  cases sign <;> simp [Sign.apply]

/-- Packing the parts that a magnitude is rounded to rounds the number with that magnitude. -/
theorem RoundedTo.of_parts {magnitude : ℚ} {mantissa : ℕ} {exponent : ℤ}
    (parts : RoundedParts magnitude mantissa exponent) (sign : Sign)
    (read : result.toModel.unpack =
      unpack .binary64 (pack .binary64 (ofParts sign mantissa exponent))) :
    RoundedTo ((sign.apply 1 : ℤ) * magnitude) result := by
  obtain ⟨short, least, leading, near⟩ := parts
  have signed : RoundsTo ((sign.apply 1 : ℤ) * magnitude)
      ((sign.apply 1 : ℤ) * (mantissa * 2 ^ exponent)) := by
    cases sign with
    | positive => simpa [Sign.apply] using near
    | negative => simpa [Sign.apply] using near.neg
  rcases Nat.eq_zero_or_pos mantissa with rfl | positive
  · have zero : result.toModel.unpack = .zero sign := read.trans (unpack_pack_zero sign)
    refine .finite (isFinite_iff.mpr (.inl ⟨sign, zero⟩)) ?_
    rw [valueOf_of_zero zero]
    simpa using signed
  · rw [ofParts, dif_neg positive.ne'] at read
    by_cases great : 971 < exponent
    · rw [unpack_pack_of_gt great] at read
      have beyond : (2 : ℚ) ^ 1024 ≤ mantissa * 2 ^ exponent := by
        have digits : 2 ^ 52 ≤ mantissa := leading.resolve_right (by omega)
        calc (2 : ℚ) ^ 1024
            = 2 ^ (972 : ℤ) * 2 ^ 52 :=
              (zpow_natCast 2 1024).symm.trans (two_zpow_add 972 52)
          _ ≤ 2 ^ exponent * mantissa :=
              mul_le_mul (zpow_le_zpow_right₀ one_le_two (by omega)) (by exact_mod_cast digits)
                (by positivity) (by positivity)
          _ = mantissa * 2 ^ exponent := mul_comm _ _
      cases sign with
      | positive =>
          refine .above read _ signed ?_
          simpa [Sign.apply] using beyond
      | negative =>
          refine .below read _ signed ?_
          simpa [Sign.apply] using beyond
    · rw [unpack_pack_of_canonical ⟨short, least, not_lt.mp great, leading⟩] at read
      refine .finite (isFinite_iff.mpr (.inr ⟨_, _, _, _, read⟩)) ?_
      rw [valueOf_of_finite read, sign_apply_cast, mul_assoc]
      exact signed

/-- What a magnitude is rounded to that is given by leading digits and by what these leave out. -/
inductive RoundedDigits (magnitude : ℚ) (sign : Sign) : Float.Model.UnpackedFloat → Prop where
  /-- The digits are enough, and stand for the magnitude. -/
  | intro {number : ℚ} {mantissa : ℕ} {exponent : ℤ} {accuracy : Accuracy}
      (represents : Represents (.ofMantissaAndAccuracy mantissa accuracy) number)
      (long : 2 ^ 52 ≤ mantissa ∨ exponent ≤ -1074) (same : number * 2 ^ exponent = magnitude) :
      RoundedDigits magnitude sign (roundWithAccuracy .binary64 sign mantissa exponent accuracy)

/-- A magnitude is rounded in one way, whichever digits it is given by. -/
theorem RoundedDigits.unique {magnitude : ℚ} {sign : Sign}
    {parts parts' : Float.Model.UnpackedFloat} (rounded : RoundedDigits magnitude sign parts)
    (rounded' : RoundedDigits magnitude sign parts') : parts = parts' := by
  obtain ⟨represents, long, same⟩ := rounded
  obtain ⟨represents', long', same'⟩ := rounded'
  exact roundWithAccuracy_congr represents represents' long long' (same.trans same'.symm) sign

theorem RoundedTo.of_roundedDigits {magnitude : ℚ} {sign : Sign}
    {parts : Float.Model.UnpackedFloat} (rounded : RoundedDigits magnitude sign parts)
    (read : result.toModel.unpack = unpack .binary64 (pack .binary64 parts)) :
    RoundedTo ((sign.apply 1 : ℤ) * magnitude) result := by
  obtain ⟨represents, long, rfl⟩ := rounded
  obtain ⟨mantissa, exponent, parts, same⟩ := roundWithAccuracy_eq represents long
  exact .of_parts parts sign (same sign ▸ read)

/-! ## Values of doubles -/

/-- A finite double is packed and unpacked without loss. -/
theorem unpack_pack_unpack {value : Float} (finite : value.isFinite = true) :
    unpack .binary64 (pack .binary64 value.toModel.unpack) = value.toModel.unpack := by
  rcases isFinite_iff.mp finite with ⟨sign, read⟩ | ⟨sign, mantissa, exponent, positive, read⟩
  · rw [read]
    exact unpack_pack_zero sign
  · rw [read]
    exact unpack_pack_of_canonical (canonical_of_unpack read) sign positive

theorem abs_valueOf_of_finite {value : Float} {sign : Sign} {mantissa : ℕ} {exponent : ℤ}
    {positive : 0 < mantissa}
    (read : value.toModel.unpack = .finite sign mantissa exponent positive) :
    |valueOf value| = mantissa * 2 ^ exponent := by
  rw [valueOf_of_finite read, abs_mul, abs_of_pos (by positivity : (0 : ℚ) < 2 ^ exponent)]
  cases sign <;> simp [Sign.apply]

/-- The value of a double needs no rounding. -/
theorem roundsTo_valueOf {value : Float} (finite : value.isFinite = true) :
    RoundsTo (valueOf value) (valueOf value) := by
  rcases isFinite_iff.mp finite with ⟨sign, read⟩ | ⟨sign, mantissa, exponent, positive, read⟩
  · rw [valueOf_of_zero read]
    exact RoundsTo.zero
  · obtain ⟨short, least, -, leading⟩ := canonical_of_unpack read
    have magnitude := abs_valueOf_of_finite read
    have unit : (0 : ℚ) < 2 ^ exponent := by positivity
    have power : (2 : ℚ) ^ (exponent + 53) = 2 ^ exponent * 2 ^ 53 := two_zpow_add exponent 53
    have power' : (2 : ℚ) ^ (exponent + 52) = 2 ^ exponent * 2 ^ 52 := two_zpow_add exponent 52
    refine ⟨exponent, sign.apply mantissa, ⟨least, ?_, ?_⟩, valueOf_of_finite read, ?_⟩
    · rw [magnitude, power, mul_comm]
      exact mul_lt_mul_of_pos_left (by exact_mod_cast short) unit
    · refine leading.imp_left fun leading => ?_
      rw [magnitude, power', mul_comm (mantissa : ℚ)]
      exact mul_le_mul_of_nonneg_left (by exact_mod_cast leading) unit.le
    · rw [sub_self, abs_zero]
      positivity

/-- The value of a double is rounded to nothing else. -/
theorem RoundsTo.eq_valueOf {value : Float} (finite : value.isFinite = true) {rounded : ℚ}
    (rounds : RoundsTo (valueOf value) rounded) : rounded = valueOf value := by
  rcases isFinite_iff.mp finite with ⟨sign, read⟩ | ⟨sign, mantissa, exponent, positive, read⟩
  · have zero : ((0 : ℤ) : ℚ) * 2 ^ (0 : ℤ) = 0 := by norm_num
    rw [valueOf_of_zero read, ← zero] at rounds ⊢
    exact rounds.eq_of_multiple (by norm_num) (by norm_num)
  · obtain ⟨short, least, -, -⟩ := canonical_of_unpack read
    rw [valueOf_of_finite read] at rounds ⊢
    refine rounds.eq_of_multiple ?_ least
    cases sign <;> simpa [Sign.apply] using (by exact_mod_cast short : (mantissa : ℤ) < 2 ^ 53)

theorem abs_valueOf_le {value : Float} (finite : value.isFinite = true) :
    |valueOf value| ≤ (2 ^ 53 - 1) * 2 ^ (971 : ℤ) := by
  rcases isFinite_iff.mp finite with ⟨sign, read⟩ | ⟨sign, mantissa, exponent, positive, read⟩
  · rw [valueOf_of_zero read, abs_zero]
    positivity
  · obtain ⟨short, -, greatest, -⟩ := canonical_of_unpack read
    have digits : (mantissa : ℚ) ≤ 2 ^ 53 - 1 := by
      have bound : (mantissa : ℚ) + 1 ≤ 2 ^ 53 := by exact_mod_cast short
      linarith
    rw [abs_valueOf_of_finite read]
    exact mul_le_mul digits (zpow_le_zpow_right₀ one_le_two greatest) (by positivity)
      (by norm_num)

/-- **A number within the range of doubles is rounded to a double.** -/
theorem RoundedTo.finite_of_abs_le (rounded : RoundedTo number result) {other : Float}
    (finite : other.isFinite = true) (bounded : |number| ≤ |valueOf other|) :
    result.isFinite = true ∧ RoundsTo number (valueOf result) := by
  have within := bounded.trans (abs_valueOf_le finite)
  have power : (2 : ℚ) ^ 1024 = 2 ^ (1024 : ℤ) := (zpow_natCast 2 1024).symm
  rcases rounded with ⟨isFinite, rounds⟩ | ⟨-, beyond, rounds, great⟩ | ⟨-, beyond, rounds, great⟩
  · exact ⟨isFinite, rounds⟩
  · have bound := (le_abs_self beyond).trans_lt (rounds.abs_lt within)
    rw [power] at great
    exact absurd great bound.not_ge
  · have bound := (neg_le_abs beyond).trans_lt (rounds.abs_lt within)
    rw [power] at great
    exact absurd (le_neg.mp great) bound.not_ge

/-- A finite result is the exact result, rounded. -/
theorem RoundedTo.roundsTo (rounded : RoundedTo number result) (finite : result.isFinite = true) :
    RoundsTo number (valueOf result) := by
  have within : result.toModel.unpack.isFinite = true := finite
  rcases rounded with ⟨-, rounds⟩ | ⟨read, -⟩ | ⟨read, -⟩
  · exact rounds
  · rw [read] at within
    cases within
  · rw [read] at within
    cases within

/-- A result with the parts of a finite double has its value. -/
theorem RoundedTo.of_unpack {value : Float} (finite : value.isFinite = true)
    (read : result.toModel.unpack = unpack .binary64 (pack .binary64 value.toModel.unpack)) :
    RoundedTo (valueOf value) result := by
  obtain rfl : result = value := eq_of_unpacked (read.trans (unpack_pack_unpack finite))
  exact .finite finite (roundsTo_valueOf finite)

/-! ## Sums and differences -/

/-- Digits are appended to a mantissa that has too few to be cut. -/
theorem round_eq {mantissa : ℕ} (positive : 0 < mantissa) (exponent : ℤ) :
    ∃ mantissa' exponent', RoundedParts (mantissa * 2 ^ exponent) mantissa' exponent' ∧
      ∀ sign, Float.Model.UnpackedFloat.round .binary64 sign mantissa exponent =
        ofParts sign mantissa' exponent' := by
  generalize count_eq : (exponent - targetPlace mantissa exponent).toNat = count
  have long : 2 ^ 52 ≤ mantissa <<< count ∨ exponent - count ≤ -1074 := by
    rw [targetPlace] at count_eq
    rw [Nat.shiftLeft_eq]
    by_cases few : 52 ≤ mantissa.log2 + count
    · left
      calc 2 ^ 52 ≤ 2 ^ (mantissa.log2 + count) := Nat.pow_le_pow_right two_pos few
        _ = 2 ^ mantissa.log2 * 2 ^ count := pow_add _ _ _
        _ ≤ mantissa * 2 ^ count := Nat.mul_le_mul_right _ (Nat.log2_self_le positive.ne')
    · right
      omega
  obtain ⟨mantissa', exponent', parts, same⟩ :=
    roundWithAccuracy_eq (represents_exact (mantissa <<< count)) long
  have scaled :
      ((mantissa <<< count : ℕ) : ℚ) * 2 ^ (exponent - count) = mantissa * 2 ^ exponent := by
    have power : (2 : ℚ) ^ exponent = 2 ^ (exponent - count) * 2 ^ count := by
      rw [← two_zpow_add, sub_add_cancel]
    rw [Nat.shiftLeft_eq, power]
    push_cast
    ring
  rw [scaled] at parts
  refine ⟨mantissa', exponent', parts, fun sign => ?_⟩
  rw [← same sign, ← count_eq]
  rfl

theorem RoundedTo.of_normalize (mantissa exponent : ℤ) (sign : Sign)
    (read : result.toModel.unpack = unpack .binary64 (pack .binary64
      (Float.Model.UnpackedFloat.normalize .binary64 mantissa exponent sign))) :
    RoundedTo (mantissa * 2 ^ exponent) result := by
  have side {sign : Sign} {magnitude : ℕ} (positive : 0 < magnitude)
      (read : result.toModel.unpack = unpack .binary64 (pack .binary64
        (Float.Model.UnpackedFloat.round .binary64 sign magnitude exponent))) :
      RoundedTo ((sign.apply 1 : ℤ) * (magnitude * 2 ^ exponent)) result := by
    obtain ⟨mantissa', exponent', parts, same⟩ := round_eq positive exponent
    exact .of_parts parts sign (same sign ▸ read)
  rcases lt_trichotomy mantissa 0 with negative | rfl | positive
  · have compared : compare mantissa 0 = .lt := compare_lt_iff_lt.mpr negative
    simp only [Float.Model.UnpackedFloat.normalize, compared] at read
    have magnitude : (((-mantissa).toNat : ℕ) : ℚ) = -mantissa := by
      exact_mod_cast Int.toNat_of_nonneg (by omega : 0 ≤ -mantissa)
    have rounded := side (by omega) read
    rw [magnitude] at rounded
    simpa [Sign.apply] using rounded
  · have compared : compare (0 : ℤ) 0 = .eq := compare_eq_iff_eq.mpr rfl
    simp only [Float.Model.UnpackedFloat.normalize, compared] at read
    rw [Int.cast_zero, zero_mul]
    exact .of_zero (read.trans (unpack_pack_zero sign))
  · have compared : compare mantissa 0 = .gt := compare_gt_iff_gt.mpr positive
    simp only [Float.Model.UnpackedFloat.normalize, compared] at read
    have magnitude : ((mantissa.toNat : ℕ) : ℚ) = mantissa := by
      exact_mod_cast Int.toNat_of_nonneg positive.le
    have rounded := side (by omega) read
    rw [magnitude] at rounded
    simpa [Sign.apply] using rounded

/-- A mantissa beside a smaller exponent. -/
theorem apply_shiftLeft (sign : Sign) (mantissa : ℕ) {exponent common : ℤ}
    (smaller : common ≤ exponent) :
    ((sign.apply (mantissa <<< (exponent - common).toNat : ℕ) : ℤ) : ℚ) * 2 ^ common =
      (sign.apply mantissa : ℤ) * 2 ^ exponent := by
  have power : (2 : ℚ) ^ exponent = 2 ^ common * 2 ^ (exponent - common).toNat := by
    rw [← two_zpow_add]
    congr 1
    omega
  rw [sign_apply_cast, sign_apply_cast sign mantissa, Nat.shiftLeft_eq, power]
  push_cast
  ring

variable {left right : Float}

/-- **A sum of finite doubles is the exact sum, rounded.** -/
theorem roundedTo_add (finite : left.isFinite = true) (finite' : right.isFinite = true) :
    RoundedTo (valueOf left + valueOf right) (left + right) := by
  have parts : (left + right).toModel.unpack = unpack .binary64 (pack .binary64
    (add .binary64 left.toModel.unpack right.toModel.unpack)) := rfl
  rcases isFinite_iff.mp finite with ⟨sign, read⟩ | ⟨sign, mantissa, exponent, positive, read⟩ <;>
    rcases isFinite_iff.mp finite' with
      ⟨sign', read'⟩ | ⟨sign', mantissa', exponent', positive', read'⟩
  · rw [valueOf_of_zero read, valueOf_of_zero read', add_zero]
    rw [read, read'] at parts
    cases sign <;> cases sign' <;> exact .of_zero (parts.trans (unpack_pack_zero _))
  · rw [valueOf_of_zero read, zero_add]
    rw [read] at parts
    refine .of_unpack finite' (parts.trans ?_)
    rw [read']
    rfl
  · rw [valueOf_of_zero read', add_zero]
    rw [read'] at parts
    refine .of_unpack finite (parts.trans ?_)
    rw [read]
    rfl
  · rw [read, read'] at parts
    have rounded := RoundedTo.of_normalize _ (min exponent exponent') .positive parts
    rw [Int.cast_add, add_mul, apply_shiftLeft sign mantissa (min_le_left _ _),
      apply_shiftLeft sign' mantissa' (min_le_right _ _)] at rounded
    rwa [valueOf_of_finite read, valueOf_of_finite read']

/-- **A difference of finite doubles is the exact difference, rounded.** -/
theorem roundedTo_sub (finite : left.isFinite = true) (finite' : right.isFinite = true) :
    RoundedTo (valueOf left - valueOf right) (left - right) := by
  have parts : (left - right).toModel.unpack = unpack .binary64 (pack .binary64
    (sub .binary64 left.toModel.unpack right.toModel.unpack)) := rfl
  rcases isFinite_iff.mp finite with ⟨sign, read⟩ | ⟨sign, mantissa, exponent, positive, read⟩ <;>
    rcases isFinite_iff.mp finite' with
      ⟨sign', read'⟩ | ⟨sign', mantissa', exponent', positive', read'⟩
  · rw [valueOf_of_zero read, valueOf_of_zero read', sub_zero]
    rw [read, read'] at parts
    cases sign <;> cases sign' <;> exact .of_zero (parts.trans (unpack_pack_zero _))
  · obtain ⟨finiteNeg, valueNeg⟩ := neg_of_isFinite finite'
    have negated : (-right).toModel.unpack = .finite (-sign') mantissa' exponent' positive' := by
      show unpack .binary64 (pack .binary64 right.toModel.unpack.neg) = _
      rw [read']
      exact unpack_pack_of_canonical (canonical_of_unpack read') (-sign') positive'
    rw [valueOf_of_zero read, zero_sub, ← valueNeg]
    rw [read, read'] at parts
    refine .of_unpack finiteNeg (parts.trans ?_)
    rw [negated]
    rfl
  · rw [valueOf_of_zero read', sub_zero]
    rw [read'] at parts
    refine .of_unpack finite (parts.trans ?_)
    rw [read]
    rfl
  · rw [read, read'] at parts
    have rounded := RoundedTo.of_normalize _ (min exponent exponent') .positive parts
    rw [Int.cast_sub, sub_mul, apply_shiftLeft sign mantissa (min_le_left _ _),
      apply_shiftLeft sign' mantissa' (min_le_right _ _)] at rounded
    rwa [valueOf_of_finite read, valueOf_of_finite read']

/-! ## Products and quotients -/

section Parts

variable {mantissa mantissa' : ℕ} {exponent exponent' : ℤ} (positive : 0 < mantissa)
  (positive' : 0 < mantissa') (sign sign' : Sign)

include positive positive'

theorem long_mul_of_canonical (canonical : Canonical mantissa exponent)
    (canonical' : Canonical mantissa' exponent') :
    2 ^ 52 ≤ mantissa * mantissa' ∨ exponent + exponent' ≤ -1074 := by
  rcases canonical.leading with leading | least
  · exact .inl (leading.trans (Nat.le_mul_of_pos_right _ positive'))
  · rcases canonical'.leading with leading' | least'
    · exact .inl (leading'.trans (Nat.le_mul_of_pos_left _ positive))
    · right
      omega

theorem roundedDigits_mul (long : 2 ^ 52 ≤ mantissa * mantissa' ∨ exponent + exponent' ≤ -1074) :
    RoundedDigits (mantissa * 2 ^ exponent * (mantissa' * 2 ^ exponent')) (sign * sign')
      (mul .binary64 (.finite sign mantissa exponent positive)
        (.finite sign' mantissa' exponent' positive')) := by
  refine .intro (represents_exact (mantissa * mantissa')) long ?_
  rw [zpow_add₀ two_ne_zero]
  push_cast
  ring

/-- A dividend is given so many more digits that the quotient has enough. -/
theorem divCore_long {place : ℤ}
    (place_eq : place = min (exponent - exponent') (max (mantissa.log2 + 1 + exponent -
      (mantissa'.log2 + 1 + exponent') - 53) (-1074))) :
    2 ^ 52 ≤ (mantissa <<< (exponent - exponent' - place).toNat) / mantissa' ∨ place ≤ -1074 := by
  by_cases few : place ≤ -1074
  · exact .inr few
  · left
    generalize count_eq : (exponent - exponent' - place).toNat = count
    have enough : mantissa'.log2 + 53 ≤ mantissa.log2 + count := by omega
    have divisor : mantissa' ≤ 2 ^ (mantissa'.log2 + 1) := Nat.lt_log2_self.le
    rw [Nat.le_div_iff_mul_le positive', Nat.shiftLeft_eq]
    calc 2 ^ 52 * mantissa'
        ≤ 2 ^ 52 * 2 ^ (mantissa'.log2 + 1) := Nat.mul_le_mul_left _ divisor
      _ = 2 ^ (mantissa'.log2 + 53) := by rw [← pow_add, Nat.add_comm]
      _ ≤ 2 ^ (mantissa.log2 + count) := Nat.pow_le_pow_right two_pos enough
      _ = 2 ^ mantissa.log2 * 2 ^ count := pow_add _ _ _
      _ ≤ mantissa * 2 ^ count := Nat.mul_le_mul_right _ (Nat.log2_self_le positive.ne')

theorem roundedDigits_div :
    RoundedDigits (mantissa * 2 ^ exponent / (mantissa' * 2 ^ exponent')) (sign / sign')
      (div .binary64 (.finite sign mantissa exponent positive)
        (.finite sign' mantissa' exponent' positive')) := by
  generalize place_eq : min (exponent - exponent') (max (mantissa.log2 + 1 + exponent -
    (mantissa'.log2 + 1 + exponent') - 53) (-1074)) = place
  have cut : div .binary64 (.finite sign mantissa exponent positive)
      (.finite sign' mantissa' exponent' positive') =
      roundWithAccuracy .binary64 (sign / sign')
        ((mantissa <<< (exponent - exponent' - place).toNat) / mantissa') place
        (accuracyOfFraction ((mantissa <<< (exponent - exponent' - place).toNat) % mantissa')
          mantissa') := by
    rw [← place_eq]
    rfl
  rw [cut]
  refine .intro (represents_accuracyOfFraction positive')
    (divCore_long positive positive' place_eq.symm) ?_
  have power : (2 : ℚ) ^ exponent / 2 ^ exponent' =
      2 ^ place * 2 ^ (exponent - exponent' - place).toNat := by
    rw [← zpow_sub₀ two_ne_zero, ← two_zpow_add]
    congr 1
    omega
  rw [mul_div_mul_comm, power, Nat.shiftLeft_eq]
  push_cast
  ring

end Parts

/-- **A product of finite doubles is the exact product, rounded.** -/
theorem roundedTo_mul (finite : left.isFinite = true) (finite' : right.isFinite = true) :
    RoundedTo (valueOf left * valueOf right) (left * right) := by
  have parts : (left * right).toModel.unpack = unpack .binary64 (pack .binary64
    (mul .binary64 left.toModel.unpack right.toModel.unpack)) := rfl
  rcases isFinite_iff.mp finite with ⟨sign, read⟩ | ⟨sign, mantissa, exponent, positive, read⟩ <;>
    rcases isFinite_iff.mp finite' with
      ⟨sign', read'⟩ | ⟨sign', mantissa', exponent', positive', read'⟩ <;>
    rw [read, read'] at parts
  · rw [valueOf_of_zero read, zero_mul]
    exact .of_zero (parts.trans (unpack_pack_zero _))
  · rw [valueOf_of_zero read, zero_mul]
    exact .of_zero (parts.trans (unpack_pack_zero _))
  · rw [valueOf_of_zero read', mul_zero]
    exact .of_zero (parts.trans (unpack_pack_zero _))
  · have long := long_mul_of_canonical positive positive' (canonical_of_unpack read)
      (canonical_of_unpack read')
    have rounded := RoundedTo.of_roundedDigits
      (roundedDigits_mul positive positive' sign sign' long) parts
    have product : valueOf left * valueOf right = ((sign * sign').apply 1 : ℤ) *
        (mantissa * 2 ^ exponent * (mantissa' * 2 ^ exponent')) := by
      have signs : (sign * sign').apply 1 = sign.apply 1 * sign'.apply 1 := by
        cases sign <;> cases sign' <;> rfl
      rw [valueOf_of_finite read, valueOf_of_finite read', sign_apply_cast, sign_apply_cast sign',
        signs]
      push_cast
      ring
    rwa [product]

/-- **A quotient of finite doubles is the exact quotient, rounded.** -/
theorem roundedTo_div (finite : left.isFinite = true) (finite' : right.isFinite = true)
    (nonzero : valueOf right ≠ 0) : RoundedTo (valueOf left / valueOf right) (left / right) := by
  have parts : (left / right).toModel.unpack = unpack .binary64 (pack .binary64
    (div .binary64 left.toModel.unpack right.toModel.unpack)) := rfl
  rcases isFinite_iff.mp finite' with
    ⟨sign', read'⟩ | ⟨sign', mantissa', exponent', positive', read'⟩
  · exact absurd (valueOf_of_zero read') nonzero
  rcases isFinite_iff.mp finite with ⟨sign, read⟩ | ⟨sign, mantissa, exponent, positive, read⟩ <;>
    rw [read, read'] at parts
  · rw [valueOf_of_zero read, zero_div]
    exact .of_zero (parts.trans (unpack_pack_zero _))
  · have rounded := RoundedTo.of_roundedDigits
      (roundedDigits_div positive positive' sign sign') parts
    have quotient : valueOf left / valueOf right = ((sign / sign').apply 1 : ℤ) *
        (mantissa * 2 ^ exponent / (mantissa' * 2 ^ exponent')) := by
      have signs : (((sign / sign').apply 1 : ℤ) : ℚ) =
          (sign.apply 1 : ℤ) / (sign'.apply 1 : ℤ) := by
        cases sign <;> cases sign' <;> simp [Sign.apply] <;> rfl
      rw [valueOf_of_finite read, valueOf_of_finite read', sign_apply_cast, sign_apply_cast sign',
        signs, mul_assoc, mul_assoc, mul_div_mul_comm]
    rwa [quotient]

end ChartCompiler
