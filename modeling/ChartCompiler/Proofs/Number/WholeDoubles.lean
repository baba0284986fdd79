import ChartCompiler.Proofs.Number.Arithmetic
import ChartCompiler.Proofs.Number.Nearest

/-!
# Whole doubles

Rounding a double to a whole number is exact: a double from `2 ^ 52` on is whole already, and below
that the whole number that a rule gives is a double (`wholeBy_eq`).  So the programs for doubles and
for exact numbers go to the same whole numbers.  The numeral of a double with some decimal places
rounds its exact magnitude (`nearest_nearestUnits`).
-/

set_option autoImplicit false

namespace ChartCompiler

open Float.Model.UnpackedFloat

/-! ## Whole numbers -/

/-- A number of at most 53 digits is a double if it is not too great. -/
theorem RoundedTo.eq_of_multiple {result : Float} {units exponent : ℤ} (short : |units| < 2 ^ 53)
    (least : -1074 ≤ exponent) (greatest : |(units : ℚ) * 2 ^ exponent| < 2 ^ 1024)
    (rounded : RoundedTo (units * 2 ^ exponent) result) :
    result.isFinite = true ∧ valueOf result = units * 2 ^ exponent := by
  obtain ⟨low, high⟩ := abs_lt.mp greatest
  rcases rounded with ⟨finite, rounds⟩ | ⟨-, number, rounds, great⟩ | ⟨-, number, rounds, great⟩
  · exact ⟨finite, rounds.eq_of_multiple short least⟩
  · rw [rounds.eq_of_multiple short least] at great
    exact absurd great high.not_ge
  · rw [rounds.eq_of_multiple short least] at great
    exact absurd great low.not_ge

theorem RoundedTo.eq_of_whole {result : Float} {whole : ℤ} (short : |whole| < 2 ^ 53)
    (rounded : RoundedTo whole result) : result.isFinite = true ∧ valueOf result = whole := by
  have unit : (whole : ℚ) = whole * 2 ^ (0 : ℤ) := by rw [zpow_zero, mul_one]
  have greatest : |(whole : ℚ) * 2 ^ (0 : ℤ)| < 2 ^ 1024 := by
    rw [← unit]
    calc |(whole : ℚ)| < 2 ^ 53 := by exact_mod_cast short
      _ ≤ 2 ^ 1024 := pow_le_pow_right₀ one_le_two (by norm_num)
  rw [unit] at rounded ⊢
  exact rounded.eq_of_multiple short (by norm_num) greatest

theorem toFloat_exact (count : ℕ) (short : count < 2 ^ 53) :
    count.toUInt64.toFloat.isFinite = true ∧ valueOf count.toUInt64.toFloat = count := by
  have shortInt : |(count : ℤ)| < 2 ^ 53 := by rw [Nat.abs_cast]; exact_mod_cast short
  have word : count.toUInt64.toNat = count := by
    rw [Nat.toUInt64, UInt64.toNat_ofNat', Nat.mod_eq_of_lt (by omega)]
  have rounded : RoundedTo ((count.toUInt64.toNat : ℤ) * 2 ^ (0 : ℤ)) count.toUInt64.toFloat :=
    .of_normalize _ 0 .positive rfl
  rw [word, zpow_zero, mul_one] at rounded
  exact rounded.eq_of_whole shortInt

/-- **Counts of at most 53 binary digits are doubles.** -/
theorem ofNat_exact (count : ℕ) (short : count < 2 ^ 53) :
    (Float.ofNat count).isFinite = true ∧ valueOf (Float.ofNat count) = count := by
  have shortInt : |(count : ℤ)| < 2 ^ 53 := by rw [Nat.abs_cast]; exact_mod_cast short
  obtain ⟨finite, value⟩ := toFloat_exact count short
  have one : (Float.ofBits 4607182418800017408).toModel.unpack =
      .finite .positive (2 ^ 52) (-52) (by decide) := rfl
  have oneFinite : (Float.ofBits 4607182418800017408).isFinite = true := rfl
  have oneValue : valueOf (Float.ofBits 4607182418800017408) = 1 := by
    rw [valueOf_of_finite one]
    norm_num [Sign.apply]
  have product : Float.ofNat count =
      count.toUInt64.toFloat * Float.ofBits 4607182418800017408 := by
    show Float.ofScientific count false 0 = _
    rw [Float.ofScientific, dif_pos ⟨short, by decide⟩]
    rfl
  have rounded := roundedTo_mul finite oneFinite
  rw [value, oneValue, mul_one, ← product] at rounded
  exact rounded.eq_of_whole shortInt

theorem wholeFrom_exact : wholeFrom.isFinite = true ∧ valueOf wholeFrom = 2 ^ 52 := by
  have exact' := ofNat_exact (2 ^ 52) (by norm_num)
  exact ⟨exact'.1, exact'.2.trans (by norm_num)⟩

/-- From `2 ^ 52` on a double is whole. -/
theorem exists_whole {value : Float} (finite : value.isFinite = true)
    (great : 2 ^ 52 ≤ |valueOf value|) : ∃ whole : ℤ, valueOf value = whole := by
  rcases isFinite_iff.mp finite with ⟨sign, read⟩ | ⟨sign, mantissa, exponent, positive, read⟩
  · exact ⟨0, by rw [valueOf_of_zero read, Int.cast_zero]⟩
  · have short := (canonical_of_unpack read).mantissa_lt
    have nonneg : 0 ≤ exponent := by
      by_contra negative
      have small : (mantissa : ℚ) * 2 ^ exponent < 2 ^ 52 := by
        calc (mantissa : ℚ) * 2 ^ exponent
            < 2 ^ 53 * 2 ^ exponent :=
              mul_lt_mul_of_pos_right (by exact_mod_cast short) (by positivity)
          _ ≤ 2 ^ 53 * 2 ^ (-1 : ℤ) :=
              mul_le_mul_of_nonneg_left (zpow_le_zpow_right₀ one_le_two (by omega)) (by positivity)
          _ = 2 ^ 52 := by norm_num
      rw [abs_valueOf_of_finite read] at great
      exact absurd small great.not_gt
    refine ⟨sign.apply mantissa * 2 ^ exponent.toNat, ?_⟩
    have power : (2 : ℚ) ^ exponent = 2 ^ exponent.toNat := by
      rw [← zpow_natCast, Int.toNat_of_nonneg nonneg]
    rw [valueOf_of_finite read, power]
    push_cast
    rfl

/-! ## Rounding to whole numbers -/

/-- A rule for magnitudes follows a function to the whole numbers, on both sides of zero. -/
structure Follows (rule : Bool → ℕ → ℕ → ℕ) (target : ℚ → ℤ) : Prop where
  whole : ∀ number : ℤ, target number = number
  mono : Monotone target
  nonneg : ∀ numerator denominator : ℕ, 0 < denominator →
    target ((numerator : ℚ) / denominator) = rule false numerator denominator
  nonpos : ∀ numerator denominator : ℕ, 0 < denominator →
    target (-((numerator : ℚ) / denominator)) = -rule true numerator denominator

theorem lt_wholeFrom_iff {value : Float} (finite : value.isFinite = true) :
    value.abs < wholeFrom ↔ |valueOf value| < 2 ^ 52 := by
  obtain ⟨absFinite, absValue⟩ := abs_of_isFinite finite
  rw [lt_iff_valueOf absFinite wholeFrom_exact.1, absValue, wholeFrom_exact.2]

/-- Below `2 ^ 52` the whole number that the rule gives is a double. -/
theorem wholeBy_eq_of_lt {rule : Bool → ℕ → ℕ → ℕ} {target : ℚ → ℤ} (follows : Follows rule target)
    {value : Float} (finite : value.isFinite = true) (small : |valueOf value| < 2 ^ 52) :
    (wholeBy rule value).isFinite = true ∧
      valueOf (wholeBy rule value) = target (valueOf value) := by
  have shape : wholeBy rule value =
      if (Binary.ofFloat value).negative then
        -Float.ofNat (rule (Binary.ofFloat value).negative (Binary.ofFloat value).quotient.1
          (Binary.ofFloat value).quotient.2)
      else
        Float.ofNat (rule (Binary.ofFloat value).negative (Binary.ofFloat value).quotient.1
          (Binary.ofFloat value).quotient.2) := by
    rw [wholeBy, finite, Bool.true_and,
      if_pos (decide_eq_true ((lt_wholeFrom_iff finite).mpr small))]
  have value_eq := valueOf_eq_quotient finite
  have positive := (Binary.ofFloat value).quotient_snd_pos
  rw [abs_valueOf finite] at small
  rw [shape]
  generalize (Binary.ofFloat value).negative = negative at value_eq ⊢
  generalize (Binary.ofFloat value).quotient.1 = numerator at value_eq small ⊢
  generalize (Binary.ofFloat value).quotient.2 = denominator at value_eq small positive ⊢
  have limit : ((numerator : ℚ) / denominator) ≤ (2 ^ 52 : ℤ) := by
    push_cast
    exact small.le
  cases negative with
  | false =>
      have bound := follows.mono limit
      rw [follows.whole, follows.nonneg _ _ positive] at bound
      obtain ⟨exactFinite, exactValue⟩ := ofNat_exact (rule false numerator denominator) (by omega)
      rw [if_neg (by decide)] at value_eq ⊢
      refine ⟨exactFinite, ?_⟩
      rw [value_eq, follows.nonneg _ _ positive, exactValue, Int.cast_natCast]
  | true =>
      have bound := follows.mono (neg_le_neg limit)
      rw [← Int.cast_neg, follows.whole, follows.nonpos _ _ positive] at bound
      obtain ⟨exactFinite, exactValue⟩ := ofNat_exact (rule true numerator denominator) (by omega)
      obtain ⟨negFinite, negValue⟩ := neg_of_isFinite exactFinite
      rw [if_pos rfl] at value_eq ⊢
      refine ⟨negFinite, ?_⟩
      rw [value_eq, follows.nonpos _ _ positive, negValue, exactValue, Int.cast_neg,
        Int.cast_natCast]

/-- **A double is rounded to the whole number that the rule follows.** -/
theorem wholeBy_eq {rule : Bool → ℕ → ℕ → ℕ} {target : ℚ → ℤ} (follows : Follows rule target)
    {value : Float} (finite : value.isFinite = true) :
    (wholeBy rule value).isFinite = true ∧
      valueOf (wholeBy rule value) = target (valueOf value) := by
  by_cases small : |valueOf value| < 2 ^ 52
  · exact wholeBy_eq_of_lt follows finite small
  · obtain ⟨number, value_eq⟩ := exists_whole finite (not_lt.mp small)
    rw [wholeBy, finite, Bool.true_and,
      if_neg (by rwa [decide_eq_true_iff, lt_wholeFrom_iff finite])]
    refine ⟨finite, ?_⟩
    rw [value_eq, follows.whole]

theorem ceil_div (numerator : ℕ) {denominator : ℕ} (positive : 0 < denominator) :
    ⌈(numerator : ℚ) / denominator⌉ = roundUp numerator denominator := by
  have bound : (0 : ℚ) < denominator := by exact_mod_cast positive
  have parts := Nat.div_add_mod (numerator + (denominator - 1)) denominator
  have rest := Nat.mod_lt (numerator + (denominator - 1)) positive
  rw [roundUp]
  generalize (numerator + (denominator - 1)) / denominator = above at parts
  have low : denominator * above < numerator + denominator := by omega
  have high : numerator ≤ denominator * above := by omega
  have lowCast : (denominator * above : ℚ) < numerator + denominator := by exact_mod_cast low
  have highCast : (numerator : ℚ) ≤ denominator * above := by exact_mod_cast high
  rw [Int.ceil_eq_iff, lt_div_iff₀ bound, div_le_iff₀ bound, Int.cast_natCast]
  constructor <;> linarith

theorem floor_add_half (numerator : ℕ) {denominator : ℕ} (positive : 0 < denominator) :
    ⌊(numerator : ℚ) / denominator + 1 / 2⌋ = roundTiesUp numerator denominator := by
  have bound : (denominator : ℚ) ≠ 0 := by exact_mod_cast positive.ne'
  have doubled : (numerator : ℚ) / denominator + 1 / 2 =
      ((2 * numerator + denominator : ℕ) : ℚ) / ((2 * denominator : ℕ) : ℚ) := by
    push_cast
    field_simp
  rw [doubled, Rat.floor_natCast_div_natCast]
  rfl

/-- The nearest whole number; a half goes away from zero. -/
def nearestWhole (number : ℚ) : ℤ :=
  if 0 ≤ number then ⌊number + 1 / 2⌋ else ⌈number - 1 / 2⌉

theorem abs_nearestWhole_sub_le (number : ℚ) : |(nearestWhole number : ℚ) - number| ≤ 1 / 2 := by
  rw [nearestWhole, abs_le]
  split
  · have low := Int.floor_le (number + 1 / 2)
    have high := Int.lt_floor_add_one (number + 1 / 2)
    constructor <;> linarith
  · have low := Int.le_ceil (number - 1 / 2)
    have high := Int.ceil_lt_add_one (number - 1 / 2)
    constructor <;> linarith

/-- No whole number is nearer. -/
theorem abs_nearestWhole_sub_le_abs (number : ℚ) (whole : ℤ) :
    |(nearestWhole number : ℚ) - number| ≤ |(whole : ℚ) - number| := by
  have near := abs_nearestWhole_sub_le number
  by_cases same : nearestWhole number = whole
  · rw [same]
  · have apart : (1 : ℚ) ≤ |(nearestWhole number : ℚ) - whole| := by
      exact_mod_cast Int.one_le_abs (sub_ne_zero.mpr same)
    have through := abs_sub_le (nearestWhole number : ℚ) number whole
    rw [abs_sub_comm number] at through
    linarith

theorem nearestWhole_neg (number : ℚ) : nearestWhole (-number) = -nearestWhole number := by
  rcases lt_trichotomy number 0 with negative | rfl | positive
  · rw [nearestWhole, if_pos (by linarith), nearestWhole, if_neg negative.not_ge, ← Int.floor_neg]
    congr 1
    ring
  · rw [neg_zero, nearestWhole, if_pos le_rfl]
    norm_num
  · rw [nearestWhole, if_neg (by linarith), nearestWhole, if_pos positive.le, ← Int.ceil_neg]
    congr 1
    ring

theorem follows_floor : Follows (fun negative numerator denominator =>
    if negative then roundUp numerator denominator else numerator / denominator) Int.floor where
  whole := Int.floor_intCast
  mono := Int.floor_mono
  nonneg numerator denominator _ := Rat.floor_natCast_div_natCast numerator denominator
  nonpos numerator denominator positive := by
    rw [Int.floor_neg, ceil_div numerator positive]
    rfl

theorem follows_ceil : Follows (fun negative numerator denominator =>
    if negative then numerator / denominator else roundUp numerator denominator) Int.ceil where
  whole := Int.ceil_intCast
  mono := Int.ceil_mono
  nonneg numerator denominator positive := ceil_div numerator positive
  nonpos numerator denominator _ := by
    rw [Int.ceil_neg, Rat.floor_natCast_div_natCast]
    rfl

theorem follows_nearestWhole : Follows (fun _ numerator denominator =>
    roundTiesUp numerator denominator) nearestWhole where
  whole number := by
    have near := abs_nearestWhole_sub_le (number : ℚ)
    have cast : |((nearestWhole (number : ℚ) - number : ℤ) : ℚ)| < 1 := by
      push_cast
      linarith
    have apart : |nearestWhole (number : ℚ) - number| < 1 := by exact_mod_cast cast
    exact sub_eq_zero.mp (Int.abs_lt_one_iff.mp apart)
  mono first second le := by
    rw [nearestWhole, nearestWhole]
    split <;> split
    · exact Int.floor_mono (by linarith)
    · linarith
    · have below : ⌈first - 1 / 2⌉ ≤ 0 := Int.ceil_le.mpr (by push_cast; linarith)
      exact below.trans (Int.floor_nonneg.mpr (by linarith))
    · exact Int.ceil_mono (by linarith)
  nonneg numerator denominator positive := by
    rw [nearestWhole, if_pos (by positivity), floor_add_half numerator positive]
  nonpos numerator denominator positive := by
    rw [nearestWhole_neg, nearestWhole, if_pos (by positivity), floor_add_half numerator positive]

variable {value : Float}

theorem floorOf_eq (finite : value.isFinite = true) :
    (floorOf value).isFinite = true ∧ valueOf (floorOf value) = ⌊valueOf value⌋ :=
  wholeBy_eq follows_floor finite

theorem ceilOf_eq (finite : value.isFinite = true) :
    (ceilOf value).isFinite = true ∧ valueOf (ceilOf value) = ⌈valueOf value⌉ :=
  wholeBy_eq follows_ceil finite

theorem roundOf_eq (finite : value.isFinite = true) :
    (roundOf value).isFinite = true ∧ valueOf (roundOf value) = nearestWhole (valueOf value) :=
  wholeBy_eq follows_nearestWhole finite

/-- What is not finite is not rounded. -/
theorem isFinite_of_wholeBy {rule : Bool → ℕ → ℕ → ℕ}
    (finite : (wholeBy rule value).isFinite = true) : value.isFinite = true := by
  rw [wholeBy] at finite
  split at finite
  · next within => exact (Bool.and_eq_true_iff.mp within).1
  · exact finite

/-- The whole part of a finite double. -/
theorem wholePart_eq (finite : value.isFinite = true) :
    (wholePart value : ℤ) = max ⌊valueOf value⌋ 0 := by
  have zero := ofNat_exact 0 (by decide)
  have positive_iff : 0 < value ↔ 0 < valueOf value := by
    rw [← Nat.cast_zero (R := ℚ), ← zero.2]
    exact lt_iff_valueOf zero.1 finite
  rw [wholePart, finite, Bool.true_and]
  by_cases positive : 0 < valueOf value
  · have magnitude := abs_valueOf finite
    rw [abs_of_pos positive] at magnitude
    rw [if_pos (decide_eq_true (positive_iff.mpr positive)), magnitude,
      max_eq_left (Int.floor_nonneg.mpr (by positivity)), Rat.floor_natCast_div_natCast]
    rfl
  · have floor : ⌊valueOf value⌋ ≤ 0 := by
      have bound : ⌊valueOf value⌋ ≤ ⌊(0 : ℚ)⌋ := Int.floor_mono (not_lt.mp positive)
      rwa [Int.floor_zero] at bound
    rw [if_neg (by rwa [decide_eq_true_iff, positive_iff]), max_eq_right floor]
    rfl

/-! ## Rounding to decimal places -/

/-- The numeral of a double rounds its magnitude. -/
theorem nearest_nearestUnits (finite : value.isFinite = true) (places : ℕ) :
    Nearest (|valueOf value| * 10 ^ places) (Quantity.nearestUnits places value) := by
  have nearest := nearest_roundTiesToEven ((Binary.ofFloat value).quotient.1 * tenTo places)
    (Binary.ofFloat value).quotient_snd_pos
  rw [abs_valueOf finite, div_mul_eq_mul_div]
  exact_mod_cast nearest

end ChartCompiler
