import ChartCompiler.Proofs.Number.ExactValue
import ChartCompiler.Proofs.Number.Addition

/-!
# Rounding to doubles

The doubles next to a number are the multiples of a power of two: the one that leaves the number 53
binary digits, or the least one (`IsLastPlace`).  A number is rounded to a nearest of these
multiples (`RoundsTo`), so it moves by at most `2 ^ -53` of itself and half of the least positive
double (`RoundsTo.abs_sub_le`), and a number that has few enough digits does not move at all
(`RoundsTo.eq_of_multiple`).

What is to be rounded is given by leading digits and two more bits that tell where between two
neighbours it lies (`Represents`).  These bits survive every further digit that is cut off, so
cutting at the last place and rounding by the bits goes to a nearest double, also where rounding up
carries to one digit more (`roundWithAccuracy_eq`).  A number has one last place and one pair of
bits there, so it is rounded in one way, whichever digits it is given by
(`roundWithAccuracy_congr`).
-/

set_option autoImplicit false

namespace ChartCompiler

open Float.Model.UnpackedFloat

/-! ## Last places -/

/-- The last binary place of the doubles around a number. -/
structure IsLastPlace (number : ℚ) (place : ℤ) : Prop where
  least_le : -1074 ≤ place
  abs_lt : |number| < 2 ^ (place + 53)
  leading : 2 ^ (place + 52) ≤ |number| ∨ place = -1074

/-- A number has one last place. -/
theorem IsLastPlace.unique {number : ℚ} {place place' : ℤ} (isLast : IsLastPlace number place)
    (isLast' : IsLastPlace number place') : place = place' := by
  have le {first second : ℤ} (isFirst : IsLastPlace number first)
      (isSecond : IsLastPlace number second) : second ≤ first := by
    rcases isSecond.leading with leading | least
    · have below := (zpow_lt_zpow_iff_right₀ one_lt_two).mp (leading.trans_lt isFirst.abs_lt)
      omega
    · exact least ▸ isFirst.least_le
  exact le_antisymm (le isLast' isLast) (le isLast isLast')

/-- A number is rounded to a multiple of its last place that is nearest. -/
def RoundsTo (number rounded : ℚ) : Prop :=
  ∃ (place units : ℤ), IsLastPlace number place ∧ rounded = units * 2 ^ place ∧
    |rounded - number| ≤ 2 ^ place / 2

theorem two_zpow_add (place : ℤ) (digits : ℕ) :
    (2 : ℚ) ^ (place + digits) = 2 ^ place * 2 ^ digits := by
  rw [zpow_add₀ two_ne_zero, zpow_natCast]

/-- A multiple of a power of two is also one of each smaller power. -/
theorem exists_multiple (units : ℤ) {place exponent : ℤ} (finer : place ≤ exponent) :
    ∃ multiple : ℤ, (units : ℚ) * 2 ^ exponent = multiple * 2 ^ place := by
  have power : (2 : ℚ) ^ exponent = 2 ^ place * 2 ^ (exponent - place).toNat := by
    rw [← two_zpow_add]
    congr 1
    omega
  refine ⟨units * 2 ^ (exponent - place).toNat, ?_⟩
  rw [power]
  push_cast
  ring

namespace RoundsTo

variable {number rounded : ℚ}

theorem neg (rounds : RoundsTo number rounded) : RoundsTo (-number) (-rounded) := by
  obtain ⟨place, units, ⟨least, below, leading⟩, rfl, near⟩ := rounds
  refine ⟨place, -units, ⟨least, ?_, ?_⟩, by push_cast; ring, ?_⟩
  · rwa [abs_neg]
  · rwa [abs_neg]
  · rwa [neg_sub_neg, abs_sub_comm]

/-- **Rounding moves a number by at most `2 ^ -53` of itself, or half of the least double.** -/
theorem abs_sub_le (rounds : RoundsTo number rounded) :
    |rounded - number| ≤ 2 ^ (-53 : ℤ) * |number| + 2 ^ (-1075 : ℤ) := by
  obtain ⟨place, units, ⟨-, -, leading⟩, -, near⟩ := rounds
  have half (exponent : ℤ) : (2 : ℚ) ^ exponent / 2 = 2 ^ (exponent - 1) :=
    (zpow_sub_one₀ two_ne_zero exponent).symm
  rcases leading with leading | least
  · calc |rounded - number|
        ≤ 2 ^ (place - 1) := near.trans_eq (half place)
      _ = 2 ^ (-53 : ℤ) * 2 ^ (place + 52) := by
          rw [← zpow_add₀ two_ne_zero]
          congr 1
          ring
      _ ≤ 2 ^ (-53 : ℤ) * |number| := mul_le_mul_of_nonneg_left leading (by positivity)
      _ ≤ _ := le_add_of_nonneg_right (by positivity)
  · have before : place - 1 = -1075 := by omega
    rw [half, before] at near
    exact near.trans (le_add_of_nonneg_left (by positivity))

/-- Whole numbers that are less than one apart are the same, also as multiples of a unit. -/
theorem units_eq {units units' place : ℤ}
    (near : |(units : ℚ) * 2 ^ place - units' * 2 ^ place| ≤ 2 ^ place / 2) : units = units' := by
  have unit : (0 : ℚ) < 2 ^ place := by positivity
  rw [← sub_mul, abs_mul, abs_of_pos unit, div_eq_inv_mul] at near
  have close : |(units : ℚ) - units'| ≤ 2⁻¹ := le_of_mul_le_mul_right near unit
  have apart : |units - units'| < 1 := by
    have cast : ((|units - units'| : ℤ) : ℚ) < 1 := by
      push_cast
      exact close.trans_lt (by norm_num)
    exact_mod_cast cast
  exact sub_eq_zero.mp (Int.abs_lt_one_iff.mp apart)

/-- **A number that has at most 53 digits is not changed.** -/
theorem eq_of_multiple {units exponent : ℤ} (short : |units| < 2 ^ 53) (least : -1074 ≤ exponent)
    (rounds : RoundsTo (units * 2 ^ exponent) rounded) : rounded = units * 2 ^ exponent := by
  obtain ⟨place, units', ⟨-, -, leading⟩, rfl, near⟩ := rounds
  have finer : place ≤ exponent := by
    rcases leading with leading | rfl
    · have below : (2 : ℚ) ^ (place + 52) < 2 ^ (exponent + 53) := by
        calc (2 : ℚ) ^ (place + 52)
            ≤ |(units : ℚ)| * 2 ^ exponent := by rwa [abs_mul, abs_zpow, abs_two] at leading
          _ < 2 ^ 53 * 2 ^ exponent :=
              mul_lt_mul_of_pos_right (by exact_mod_cast short) (by positivity)
          _ = 2 ^ (exponent + 53) := by
              rw [mul_comm]
              exact (two_zpow_add exponent 53).symm
      have := (zpow_lt_zpow_iff_right₀ one_lt_two).mp below
      omega
    · exact least
  obtain ⟨multiple, same⟩ := exists_multiple units finer
  rw [same] at near ⊢
  rw [units_eq near]

/-- A nearest multiple does not lie below a multiple that does not exceed the number. -/
theorem units_le {units units' place : ℤ} (le : (units : ℚ) * 2 ^ place ≤ number)
    (near : |(units' : ℚ) * 2 ^ place - number| ≤ 2 ^ place / 2) : units ≤ units' := by
  have unit : (0 : ℚ) < 2 ^ place := by positivity
  have low : -(2 ^ place / 2) ≤ (units' : ℚ) * 2 ^ place - number := (abs_le.mp near).1
  by_contra less
  have below : (units' : ℚ) ≤ units - 1 := by exact_mod_cast Int.le_sub_one_of_lt (not_le.mp less)
  have product := mul_le_mul_of_nonneg_right below unit.le
  linarith

/-- **A number is not rounded past a number of at most 53 digits.** -/
theorem le_of_multiple_le (units exponent : ℤ) (nonneg : 0 ≤ units) (short : units < 2 ^ 53)
    (least : -1074 ≤ exponent) (le : (units : ℚ) * 2 ^ exponent ≤ number)
    (rounds : RoundsTo number rounded) : (units : ℚ) * 2 ^ exponent ≤ rounded := by
  obtain ⟨place, units', ⟨-, -, leading⟩, rfl, near⟩ := rounds
  have unit : (0 : ℚ) < 2 ^ place := by positivity
  by_cases finer : place ≤ exponent
  · obtain ⟨multiple, same⟩ := exists_multiple units finer
    rw [same] at le ⊢
    exact mul_le_mul_of_nonneg_right (by exact_mod_cast units_le le near) unit.le
  · -- Here the number has so many digits that the first of them alone is at least the bound.
    have above : (0 : ℚ) ≤ number := le_trans (by positivity) le
    have digits : ((2 ^ 52 : ℤ) : ℚ) * 2 ^ place ≤ number := by
      have power : (2 : ℚ) ^ (place + 52) = 2 ^ place * 2 ^ 52 := two_zpow_add place 52
      have leading := leading.resolve_right (by omega)
      rw [abs_of_nonneg above, power, mul_comm] at leading
      exact_mod_cast leading
    have bound : ((2 ^ 52 : ℤ) : ℚ) ≤ units' := by exact_mod_cast units_le digits near
    calc (units : ℚ) * 2 ^ exponent
        ≤ (2 ^ 53 : ℤ) * 2 ^ exponent :=
          mul_le_mul_of_nonneg_right (by exact_mod_cast short.le) (by positivity)
      _ = (2 ^ 52 : ℤ) * 2 ^ (exponent + 1) := by
          rw [zpow_add_one₀ two_ne_zero]
          push_cast
          ring
      _ ≤ (2 ^ 52 : ℤ) * 2 ^ place :=
          mul_le_mul_of_nonneg_left (zpow_le_zpow_right₀ one_le_two (by omega)) (by positivity)
      _ ≤ units' * 2 ^ place := mul_le_mul_of_nonneg_right bound unit.le

/-- A number that is not negative is not rounded to a negative one. -/
theorem nonneg (rounds : RoundsTo number rounded) (above : 0 ≤ number) : 0 ≤ rounded := by
  have bound := rounds.le_of_multiple_le 0 0 le_rfl (by norm_num)
    (by norm_num) (by simpa using above)
  simpa using bound

/-- Rounding does not carry a number that is not above the greatest double beyond it. -/
theorem abs_lt (rounds : RoundsTo number rounded)
    (bounded : |number| ≤ (2 ^ 53 - 1) * 2 ^ (971 : ℤ)) : |rounded| < 2 ^ (1024 : ℤ) := by
  obtain ⟨place, units, ⟨-, -, leading⟩, -, near⟩ := rounds
  have limit : (2 : ℚ) ^ (1024 : ℤ) = 2 ^ (971 : ℤ) * 2 ^ 53 := two_zpow_add 971 53
  have greatest : (0 : ℚ) < 2 ^ (971 : ℤ) := by positivity
  have last : place ≤ 971 := by
    rcases leading with leading | rfl
    · have strict : (2 ^ 53 - 1 : ℚ) * 2 ^ (971 : ℤ) < 2 ^ (1024 : ℤ) := by
        rw [limit, mul_comm]
        exact mul_lt_mul_of_pos_left (by norm_num) greatest
      have below := (zpow_lt_zpow_iff_right₀ one_lt_two).mp
        (leading.trans_lt (bounded.trans_lt strict))
      omega
    · norm_num
  have step : (2 : ℚ) ^ place ≤ 2 ^ (971 : ℤ) := zpow_le_zpow_right₀ one_le_two last
  have moved := abs_sub_abs_le_abs_sub rounded number
  calc |rounded|
      ≤ |number| + 2 ^ place / 2 := by linarith
    _ ≤ (2 ^ 53 - 1) * 2 ^ (971 : ℤ) + 2 ^ (971 : ℤ) / 2 :=
        add_le_add bounded (div_le_div_of_nonneg_right step two_pos.le)
    _ = 2 ^ (971 : ℤ) * (2 ^ 53 - 1 / 2) := by ring
    _ < 2 ^ (971 : ℤ) * 2 ^ 53 := mul_lt_mul_of_pos_left (by norm_num) greatest
    _ = 2 ^ (1024 : ℤ) := limit.symm

theorem zero : RoundsTo 0 0 :=
  ⟨-1074, 0, ⟨le_rfl, by rw [abs_zero]; positivity, .inr rfl⟩, by simp, by
    rw [sub_zero, abs_zero]
    positivity⟩

end RoundsTo

/-! ## Cutting digits off -/

/-- A mantissa and its two extra bits tell where between two whole numbers a number lies: at the
lower one, in the lower half, in the middle or in the upper half. -/
def Represents (extended : ExtendedMantissa) (number : ℚ) : Prop :=
  match extended.roundBit, extended.stickyBit with
  | false, false => number = extended.mantissa
  | false, true => extended.mantissa < number ∧ number < extended.mantissa + 1 / 2
  | true, false => number = extended.mantissa + 1 / 2
  | true, true => extended.mantissa + 1 / 2 < number ∧ number < extended.mantissa + 1

namespace Represents

variable {extended : ExtendedMantissa} {number : ℚ}

theorem mantissa_le (represents : Represents extended number) : extended.mantissa ≤ number := by
  obtain ⟨mantissa, _ | _, _ | _⟩ := extended <;>
    simp only [Represents] at represents ⊢ <;> linarith

theorem lt_mantissa_add_one (represents : Represents extended number) :
    number < extended.mantissa + 1 := by
  obtain ⟨mantissa, _ | _, _ | _⟩ := extended <;>
    simp only [Represents] at represents ⊢ <;> linarith

/-- A number has one mantissa and one pair of extra bits. -/
theorem unique {other : ExtendedMantissa} (represents : Represents extended number)
    (represents' : Represents other number) : extended = other := by
  have low := represents.mantissa_le.trans_lt represents'.lt_mantissa_add_one
  have high := represents'.mantissa_le.trans_lt represents.lt_mantissa_add_one
  have same : extended.mantissa = other.mantissa := by
    have less : extended.mantissa < other.mantissa + 1 := by exact_mod_cast low
    have greater : other.mantissa < extended.mantissa + 1 := by exact_mod_cast high
    omega
  obtain ⟨mantissa, _ | _, _ | _⟩ := extended <;> obtain ⟨mantissa', _ | _, _ | _⟩ := other <;>
    obtain rfl : mantissa = mantissa' := same <;> first
    | rfl
    | simp only [Represents] at represents represents'
      linarith

/-- Rounding the mantissa by its extra bits goes to a nearest whole number. -/
theorem near (represents : Represents extended number) :
    |(extended.roundedMantissa : ℚ) - number| ≤ 1 / 2 := by
  obtain ⟨mantissa, _ | _, _ | _⟩ := extended
  · obtain rfl : number = mantissa := represents
    show |(mantissa : ℚ) - mantissa| ≤ _
    norm_num
  · obtain ⟨low, high⟩ : (mantissa : ℚ) < number ∧ number < mantissa + 1 / 2 := represents
    show |(mantissa : ℚ) - number| ≤ _
    rw [abs_le]
    constructor <;> linarith
  · obtain rfl : number = mantissa + 1 / 2 := represents
    show |((mantissa + mantissa % 2 : ℕ) : ℚ) - _| ≤ _
    rcases Nat.mod_two_eq_zero_or_one mantissa with even | odd
    · rw [even]
      norm_num
    · rw [odd]
      norm_num
  · obtain ⟨low, high⟩ : (mantissa : ℚ) + 1 / 2 < number ∧ number < mantissa + 1 := represents
    show |((mantissa + 1 : ℕ) : ℚ) - number| ≤ _
    rw [abs_le]
    push_cast
    constructor <;> linarith

/-- The extra bits survive another digit that is cut off. -/
theorem shiftRightOne (represents : Represents extended number) :
    Represents extended.shiftRightOne (number / 2) := by
  obtain ⟨mantissa, round, sticky⟩ := extended
  obtain ⟨half, rfl | rfl⟩ : ∃ half, mantissa = 2 * half ∨ mantissa = 2 * half + 1 :=
    ⟨mantissa / 2, by omega⟩
  · have quotient : 2 * half / 2 = half := by omega
    have digit : (2 * half % 2 != 0) = false := by
      rw [Nat.mul_mod_right]
      rfl
    simp only [ExtendedMantissa.shiftRightOne, quotient, digit]
    cases round <;> cases sticky <;> simp only [Represents, Bool.or_false, Bool.or_true,
      Nat.cast_mul, Nat.cast_ofNat] at represents ⊢ <;> (try constructor) <;> linarith
  · have quotient : (2 * half + 1) / 2 = half := by omega
    have digit : ((2 * half + 1) % 2 != 0) = true := by
      have odd : (2 * half + 1) % 2 = 1 := by omega
      rw [odd]
      rfl
    simp only [ExtendedMantissa.shiftRightOne, quotient, digit]
    cases round <;> cases sticky <;> simp only [Represents, Bool.or_false, Bool.or_true,
      Nat.cast_add, Nat.cast_mul, Nat.cast_ofNat, Nat.cast_one] at represents ⊢ <;>
      (try constructor) <;> linarith

theorem shiftRight (represents : Represents extended number) (count : ℕ) :
    Represents (extended >>> count) (number / 2 ^ count) := by
  induction count with
  | zero =>
      rw [pow_zero, div_one]
      exact represents
  | succ count ih =>
      have next := ih.shiftRightOne
      rwa [div_div, ← pow_succ] at next

end Represents

theorem represents_exact (mantissa : ℕ) :
    Represents (.ofMantissaAndAccuracy mantissa .exact) mantissa :=
  rfl

/-- The accuracy of a quotient says where between two whole numbers it lies. -/
theorem represents_accuracyOfFraction {numerator denominator : ℕ} (positive : 0 < denominator) :
    Represents (.ofMantissaAndAccuracy (numerator / denominator)
      (accuracyOfFraction (numerator % denominator) denominator))
      ((numerator : ℚ) / denominator) := by
  have bound : (0 : ℚ) < denominator := by exact_mod_cast positive
  have rest : numerator % denominator < denominator := Nat.mod_lt _ positive
  have split : (numerator : ℚ) / denominator =
      (numerator / denominator : ℕ) + ((numerator % denominator : ℕ) : ℚ) / denominator := by
    rw [div_eq_iff bound.ne', add_mul, div_mul_cancel₀ _ bound.ne']
    exact_mod_cast (Nat.div_add_mod' numerator denominator).symm
  rw [split, accuracyOfFraction]
  generalize numerator / denominator = whole at *
  generalize numerator % denominator = part at *
  have partCast : (part : ℚ) < denominator := by exact_mod_cast rest
  split
  · next none =>
    rw [none, Nat.cast_zero, zero_div, add_zero]
    exact represents_exact whole
  · next some =>
    have above : 0 < (part : ℚ) / denominator := by
      have cast : (0 : ℚ) < part := by exact_mod_cast Nat.pos_of_ne_zero some
      positivity
    have below : (part : ℚ) / denominator < 1 := (div_lt_one bound).mpr partCast
    rcases lt_trichotomy (2 * part) denominator with less | middle | greater
    · have half : (part : ℚ) / denominator < 1 / 2 := by
        rw [div_lt_div_iff₀ bound two_pos]
        have cast : (2 * part : ℚ) < denominator := by exact_mod_cast less
        linarith
      rw [compare_lt_iff_lt.mpr less]
      exact ⟨show (whole : ℚ) < _ by linarith, show _ < (whole : ℚ) + 1 / 2 by linarith⟩
    · have half : (part : ℚ) / denominator = 1 / 2 := by
        rw [div_eq_div_iff bound.ne' two_ne_zero]
        have cast : (2 * part : ℚ) = denominator := by exact_mod_cast middle
        linarith
      rw [compare_eq_iff_eq.mpr middle, half]
      rfl
    · have half : 1 / 2 < (part : ℚ) / denominator := by
        rw [div_lt_div_iff₀ two_pos bound]
        have cast : (denominator : ℚ) < 2 * part := by exact_mod_cast greater
        linarith
      rw [compare_gt_iff_gt.mpr greater]
      exact ⟨show (whole : ℚ) + 1 / 2 < _ by linarith, show _ < (whole : ℚ) + 1 by linarith⟩

/-! ## Rounding a number to its leading digits -/

/-- Parts of a double that a magnitude is rounded to; the exponent may be too great. -/
structure RoundedParts (number : ℚ) (mantissa : ℕ) (exponent : ℤ) : Prop where
  mantissa_lt : mantissa < 2 ^ 53
  least_le : -1074 ≤ exponent
  leading : 2 ^ 52 ≤ mantissa ∨ exponent = -1074
  near : RoundsTo number (mantissa * 2 ^ exponent)

/-- The number with some parts and a sign. -/
def ofParts (sign : Sign) (mantissa : ℕ) (exponent : ℤ) : Float.Model.UnpackedFloat :=
  if some : mantissa = 0 then .zero sign
  else .finite sign mantissa exponent (Nat.pos_of_ne_zero some)

variable {mantissa : ℕ} {exponent : ℤ}

/-- The exponent that cutting a mantissa to 53 digits leads to. -/
def targetPlace (mantissa : ℕ) (exponent : ℤ) : ℤ :=
  max (mantissa.log2 + 1 + exponent - 53) (-1074)

theorem shiftToTargetExponent_eq (mantissa : ℕ) (exponent : ℤ) (accuracy : Accuracy) :
    shiftToTargetExponent .binary64 mantissa exponent accuracy =
      (ExtendedMantissa.ofMantissaAndAccuracy mantissa accuracy >>>
        (targetPlace mantissa exponent - exponent).toNat,
        exponent + (targetPlace mantissa exponent - exponent).toNat) :=
  rfl

/-- A mantissa of at most 53 digits is not cut any further. -/
theorem shiftToTargetExponent_of_lt (short : mantissa < 2 ^ 53) (least : -1074 ≤ exponent) :
    shiftToTargetExponent .binary64 mantissa exponent .exact =
      (⟨mantissa, false, false⟩, exponent) := by
  have digits : mantissa.log2 ≤ 52 := by
    rcases Nat.eq_zero_or_pos mantissa with rfl | positive
    · decide
    · exact Nat.lt_succ_iff.mp ((Nat.log2_lt positive.ne').mpr short)
  have none : (targetPlace mantissa exponent - exponent).toNat = 0 := by
    rw [targetPlace]
    omega
  rw [shiftToTargetExponent_eq, none]
  exact congrArg (Prod.mk _) (add_zero exponent)

/-- Rounding up may give the mantissa one more digit, which is a zero. -/
theorem shiftToTargetExponent_carry (least : -1074 ≤ exponent) :
    shiftToTargetExponent .binary64 (2 ^ 53) exponent .exact =
      (⟨2 ^ 52, false, false⟩, exponent + 1) := by
  have once : (targetPlace (2 ^ 53) exponent - exponent).toNat = 1 := by
    rw [targetPlace, Nat.log2_two_pow]
    omega
  rw [shiftToTargetExponent_eq, once]
  rfl

theorem roundedMantissa_le (extended : ExtendedMantissa) :
    extended.roundedMantissa ≤ extended.mantissa + 1 := by
  obtain ⟨mantissa, _ | _, _ | _⟩ := extended
  · exact Nat.le_succ mantissa
  · exact Nat.le_succ mantissa
  · exact Nat.add_le_add_left (Nat.lt_succ_iff.mp (Nat.mod_lt _ two_pos)) mantissa
  · exact le_rfl

variable {number : ℚ}

/-- A mantissa that has enough digits is cut where the doubles around the number end. -/
theorem isLastPlace_targetPlace (low : mantissa ≤ number) (high : number < mantissa + 1)
    (long : 2 ^ 52 ≤ mantissa ∨ exponent ≤ -1074) :
    IsLastPlace (number * 2 ^ exponent) (targetPlace mantissa exponent) ∧
      exponent ≤ targetPlace mantissa exponent := by
  have nonneg : 0 ≤ number := (Nat.cast_nonneg mantissa).trans low
  have unit : (0 : ℚ) < 2 ^ exponent := by positivity
  have digits : mantissa + 1 ≤ 2 ^ (mantissa.log2 + 1) := Nat.lt_log2_self
  have enough : 52 ≤ mantissa.log2 ∨ exponent ≤ -1074 := by
    refine long.imp_left fun long => ?_
    exact (Nat.le_log2 (by omega)).mpr long
  refine ⟨⟨le_max_right _ _, ?_, ?_⟩, by rw [targetPlace]; omega⟩
  · rw [abs_of_nonneg (by positivity)]
    calc number * 2 ^ exponent
        < (mantissa + 1 : ℕ) * 2 ^ exponent :=
          mul_lt_mul_of_pos_right (by push_cast; exact high) unit
      _ ≤ 2 ^ (mantissa.log2 + 1) * 2 ^ exponent :=
          mul_le_mul_of_nonneg_right (by exact_mod_cast digits) unit.le
      _ = 2 ^ (exponent + (mantissa.log2 + 1 : ℕ)) := by rw [two_zpow_add, mul_comm]
      _ ≤ 2 ^ (targetPlace mantissa exponent + 53) := by
          refine zpow_le_zpow_right₀ one_le_two ?_
          rw [targetPlace]
          omega
  · by_cases least : targetPlace mantissa exponent = -1074
    · exact .inr least
    · left
      have some : mantissa ≠ 0 := by
        rintro rfl
        rw [targetPlace] at least
        have none : Nat.log2 0 = 0 := rfl
        omega
      rw [abs_of_nonneg (by positivity)]
      calc (2 : ℚ) ^ (targetPlace mantissa exponent + 52)
          ≤ 2 ^ (exponent + (mantissa.log2 : ℕ)) := by
            refine zpow_le_zpow_right₀ one_le_two ?_
            rw [targetPlace] at least ⊢
            omega
        _ = 2 ^ mantissa.log2 * 2 ^ exponent := by rw [two_zpow_add, mul_comm]
        _ ≤ mantissa * 2 ^ exponent :=
            mul_le_mul_of_nonneg_right (by exact_mod_cast Nat.log2_self_le some) unit.le
        _ ≤ number * 2 ^ exponent := mul_le_mul_of_nonneg_right low unit.le

theorem roundWithAccuracy_of_shifts {accuracy : Accuracy} {first second : ExtendedMantissa}
    {place place' : ℤ}
    (cut : shiftToTargetExponent .binary64 mantissa exponent accuracy = (first, place))
    (carried : shiftToTargetExponent .binary64 first.roundedMantissa place .exact =
      (second, place')) (sign : Sign) :
    roundWithAccuracy .binary64 sign mantissa exponent accuracy =
      ofParts sign second.mantissa place' := by
  simp only [roundWithAccuracy, cut, carried]
  rfl

/-- The leading digits of a number, cut at its last place, with two more bits. -/
structure IsCut (number : ℚ) (place : ℤ) (extended : ExtendedMantissa) : Prop where
  isLast : IsLastPlace number place
  mantissa_lt : extended.mantissa < 2 ^ 53
  leading : 2 ^ 52 ≤ extended.roundedMantissa ∨ place = -1074
  near : |(extended.roundedMantissa : ℚ) * 2 ^ place - number| ≤ 2 ^ place / 2

theorem Represents.isCut {extended : ExtendedMantissa} {place : ℤ}
    (represents : Represents extended number) (isLast : IsLastPlace (number * 2 ^ place) place) :
    IsCut (number * 2 ^ place) place extended := by
  have unit : (0 : ℚ) < 2 ^ place := by positivity
  have nonneg : 0 ≤ number := (Nat.cast_nonneg _).trans represents.mantissa_le
  have absolute : |number * 2 ^ place| = number * 2 ^ place := abs_of_nonneg (by positivity)
  refine ⟨isLast, ?_, ?_, ?_⟩
  · have bound := isLast.abs_lt
    have power : (2 : ℚ) ^ (place + 53) = 2 ^ place * 2 ^ 53 := two_zpow_add place 53
    rw [absolute, power, mul_comm] at bound
    have cast := represents.mantissa_le.trans_lt (lt_of_mul_lt_mul_left bound unit.le)
    exact_mod_cast cast
  · refine isLast.leading.imp_left fun leading => ?_
    have power : (2 : ℚ) ^ (place + 52) = 2 ^ place * 2 ^ 52 := two_zpow_add place 52
    rw [absolute, power, mul_comm number] at leading
    have cast := (le_of_mul_le_mul_left leading unit).trans_lt represents.lt_mantissa_add_one
    have below : 2 ^ 52 < extended.mantissa + 1 := by exact_mod_cast cast
    exact (Nat.lt_succ_iff.mp below).trans (mantissa_le_roundedMantissa extended)
  · rw [← sub_mul, abs_mul, abs_of_pos unit, div_eq_inv_mul]
    exact mul_le_mul_of_nonneg_right (represents.near.trans_eq (one_div 2)) unit.le

/-- A mantissa that has enough digits is cut at the last place of the number, and its extra bits
tell how much is cut off. -/
theorem exists_represents_cut {accuracy : Accuracy}
    (represents : Represents (.ofMantissaAndAccuracy mantissa accuracy) number)
    (long : 2 ^ 52 ≤ mantissa ∨ exponent ≤ -1074) :
    ∃ extended place scaled, IsLastPlace (scaled * 2 ^ place) place ∧ Represents extended scaled ∧
      scaled * 2 ^ place = number * 2 ^ exponent ∧
      shiftToTargetExponent .binary64 mantissa exponent accuracy = (extended, place) := by
  have whole : (ExtendedMantissa.ofMantissaAndAccuracy mantissa accuracy).mantissa = mantissa := by
    obtain _ | _ | _ | _ := accuracy <;> rfl
  have low := represents.mantissa_le
  have high := represents.lt_mantissa_add_one
  rw [whole] at low high
  obtain ⟨isLast, later⟩ := isLastPlace_targetPlace low high long
  have cut := shiftToTargetExponent_eq mantissa exponent accuracy
  generalize targetPlace mantissa exponent = place at isLast later cut
  generalize count_eq : (place - exponent).toNat = count at cut
  have moved : exponent + count = place := by omega
  have scaled : number / 2 ^ count * 2 ^ place = number * 2 ^ exponent := by
    rw [← moved, two_zpow_add]
    field_simp
  rw [moved] at cut
  rw [← scaled] at isLast
  exact ⟨_, place, _, isLast, represents.shiftRight count, scaled, cut⟩

/-- **A number that is cut to its leading digits is rounded to a nearest double**, whatever its
sign. -/
theorem roundWithAccuracy_eq {accuracy : Accuracy}
    (represents : Represents (.ofMantissaAndAccuracy mantissa accuracy) number)
    (long : 2 ^ 52 ≤ mantissa ∨ exponent ≤ -1074) :
    ∃ mantissa' exponent', RoundedParts (number * 2 ^ exponent) mantissa' exponent' ∧
      ∀ sign, roundWithAccuracy .binary64 sign mantissa exponent accuracy =
        ofParts sign mantissa' exponent' := by
  obtain ⟨extended, place, scaled, last, bits, same, cut⟩ := exists_represents_cut represents long
  obtain ⟨isLast, short, leading, near⟩ := same ▸ bits.isCut last
  have least := isLast.least_le
  rcases (roundedMantissa_le extended).trans short |>.lt_or_eq with few | full
  · refine ⟨extended.roundedMantissa, place, ⟨few, least, leading, place,
      extended.roundedMantissa, isLast, by push_cast; rfl, near⟩, ?_⟩
    exact roundWithAccuracy_of_shifts cut (shiftToTargetExponent_of_lt few least)
  · -- Rounding up carries to one digit more, so the last place is the next one.
    have carried := shiftToTargetExponent_carry least
    have same : ((2 ^ 52 : ℕ) : ℚ) * 2 ^ (place + 1) = (2 ^ 53 : ℤ) * 2 ^ place := by
      rw [zpow_add_one₀ two_ne_zero]
      push_cast
      ring
    rw [full] at near
    refine ⟨2 ^ 52, place + 1,
      ⟨by norm_num, by omega, .inl le_rfl, place, 2 ^ 53, isLast, same, ?_⟩,
      roundWithAccuracy_of_shifts cut (full ▸ carried)⟩
    rw [same]
    exact_mod_cast near

/-- **What a number is rounded to does not depend on the leading digits it is given by.** -/
theorem roundWithAccuracy_congr {accuracy accuracy' : Accuracy} {mantissa' : ℕ} {exponent' : ℤ}
    {number' : ℚ} (represents : Represents (.ofMantissaAndAccuracy mantissa accuracy) number)
    (represents' : Represents (.ofMantissaAndAccuracy mantissa' accuracy') number')
    (long : 2 ^ 52 ≤ mantissa ∨ exponent ≤ -1074) (long' : 2 ^ 52 ≤ mantissa' ∨ exponent' ≤ -1074)
    (same : number * 2 ^ exponent = number' * 2 ^ exponent') (sign : Sign) :
    roundWithAccuracy .binary64 sign mantissa exponent accuracy =
      roundWithAccuracy .binary64 sign mantissa' exponent' accuracy' := by
  obtain ⟨extended, place, scaled, isLast, bits, value, cut⟩ :=
    exists_represents_cut represents long
  obtain ⟨extended', place', scaled', isLast', bits', value', cut'⟩ :=
    exists_represents_cut represents' long'
  rw [value, same, ← value'] at isLast
  obtain rfl := isLast.unique isLast'
  have unit : (2 : ℚ) ^ place ≠ 0 := by positivity
  obtain rfl : scaled = scaled' :=
    mul_right_cancel₀ unit (value.trans (same.trans value'.symm))
  obtain rfl := bits.unique bits'
  simp only [roundWithAccuracy, cut, cut']

end ChartCompiler
