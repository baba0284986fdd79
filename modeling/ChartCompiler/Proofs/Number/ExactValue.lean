import ChartCompiler.Proofs.Number.TotalOrder
import ChartCompiler.Proofs.Number.Magnitude
import ChartCompiler.Proofs.Number.Exact

/-!
# The exact values of doubles

A finite double stands for a mantissa times a power of two.  Its value is read off the parts of
the double (`valueOf`), and so do the programs that take a double apart themselves
(`valueOf_eq_quotient`).  Comparing two finite doubles compares their values
(`compare_eq_compare_valueOf`), although the parts are compared, exponents before mantissas: a
greater exponent outweighs any mantissa of a smaller one.
-/

set_option autoImplicit false

namespace ChartCompiler

open Float.Model.UnpackedFloat

/-- The number that the parts of a finite double stand for; zero if there are none. -/
def unpackedValue : Float.Model.UnpackedFloat → ℚ
  | .finite sign mantissa exponent _ => (sign.apply mantissa : ℤ) * 2 ^ exponent
  | _ => 0

/-- The number that a finite double stands for. -/
def valueOf (value : Float) : ℚ :=
  unpackedValue value.toModel.unpack

/-! ## Parts -/

theorem isFinite_iff {value : Float} :
    value.isFinite = true ↔
      (∃ sign, value.toModel.unpack = .zero sign) ∨
        ∃ sign mantissa exponent positive,
          value.toModel.unpack = .finite sign mantissa exponent positive := by
  show value.toModel.unpack.isFinite = true ↔ _
  cases value.toModel.unpack with
  | notANumber => simp [Float.Model.UnpackedFloat.isFinite]
  | infinity sign => simp [Float.Model.UnpackedFloat.isFinite]
  | zero sign => simp [Float.Model.UnpackedFloat.isFinite]
  | finite sign mantissa exponent positive => simp [Float.Model.UnpackedFloat.isFinite, positive]

theorem valueOf_of_zero {value : Float} {sign : Sign} (read : value.toModel.unpack = .zero sign) :
    valueOf value = 0 := by
  rw [valueOf, read]
  rfl

theorem valueOf_of_finite {value : Float} {sign : Sign} {mantissa : ℕ} {exponent : ℤ}
    {positive : 0 < mantissa}
    (read : value.toModel.unpack = .finite sign mantissa exponent positive) :
    valueOf value = (sign.apply mantissa : ℤ) * 2 ^ exponent := by
  rw [valueOf, read]
  rfl

/-- The parts that a program reads off the bits of a double are those of the double. -/
theorem binary_of_finite {value : Float} {sign : Sign} {mantissa : ℕ} {exponent : ℤ}
    {positive : 0 < mantissa}
    (read : value.toModel.unpack = .finite sign mantissa exponent positive) :
    Binary.ofFloat value = ⟨sign == .negative, mantissa, exponent⟩ := by
  obtain ⟨⟨short, least, greatest, leading⟩, count⟩ :=
    parts_of_unpack value.toBits.toBitVec read
  have count : (value.toBits.toNat : ℤ) = _ := count
  have below : twoTo 52 = 4503599627370496 := rfl
  have fields : twoTo 11 = 2048 := rfl
  have half : twoTo 63 = 9223372036854775808 := rfl
  simp only [Binary.ofFloat, below, fields, half, Binary.mk.injEq]
  cases sign with
  | positive =>
      have bit : Sign.positive.toBitVec.toNat = 0 := rfl
      rw [bit] at count
      refine ⟨?_, ?_, ?_⟩
      · exact decide_eq_false (by omega)
      · split <;> omega
      · split <;> omega
  | negative =>
      have bit : Sign.negative.toBitVec.toNat = 1 := rfl
      rw [bit] at count
      refine ⟨?_, ?_, ?_⟩
      · exact decide_eq_true (by omega)
      · split <;> omega
      · split <;> omega

theorem binary_of_zero {value : Float} {sign : Sign} (read : value.toModel.unpack = .zero sign) :
    Binary.ofFloat value = ⟨sign == .negative, 0, -1074⟩ := by
  have packed : value.toBits.toBitVec = pack .binary64 value.toModel.unpack :=
    (pack_unpack_of_valid value.toModel.valid).symm
  have bits : value.toBits.toNat = (pack .binary64 (.zero sign)).toNat := by
    rw [← read, ← packed]
    rfl
  rw [Binary.ofFloat, bits]
  cases sign <;> rfl

theorem quotient_eq (parts : Binary) :
    (parts.quotient.1 : ℚ) / parts.quotient.2 = parts.mantissa * 2 ^ parts.exponent := by
  rw [Binary.quotient]
  split
  · next whole =>
    have power : (2 : ℚ) ^ parts.exponent = 2 ^ parts.exponent.toNat := by
      rw [← zpow_natCast, Int.toNat_of_nonneg whole]
    rw [power]
    push_cast [twoTo, Nat.pow_eq]
    ring
  · next fractional =>
    have power : (2 : ℚ) ^ parts.exponent = (2 ^ (-parts.exponent).toNat)⁻¹ := by
      rw [← zpow_natCast, Int.toNat_of_nonneg (by omega), zpow_neg, inv_inv]
    rw [power, ← div_eq_mul_inv]
    push_cast [twoTo, Nat.pow_eq]
    rfl

/-- **What programs read off a finite double is its value**: a quotient, and a sign. -/
theorem valueOf_eq_quotient {value : Float} (finite : value.isFinite = true) :
    valueOf value =
      if (Binary.ofFloat value).negative then
        -(((Binary.ofFloat value).quotient.1 : ℚ) / (Binary.ofFloat value).quotient.2)
      else ((Binary.ofFloat value).quotient.1 : ℚ) / (Binary.ofFloat value).quotient.2 := by
  rw [quotient_eq]
  rcases isFinite_iff.mp finite with ⟨sign, read⟩ | ⟨sign, mantissa, exponent, positive, read⟩
  · rw [binary_of_zero read, valueOf_of_zero read]
    simp
  · rw [binary_of_finite read, valueOf_of_finite read]
    cases sign with
    | positive => simp [Sign.apply]
    | negative => simp [Sign.apply]

theorem abs_valueOf {value : Float} (finite : value.isFinite = true) :
    |valueOf value| =
      ((Binary.ofFloat value).quotient.1 : ℚ) / (Binary.ofFloat value).quotient.2 := by
  have nonneg :
      0 ≤ ((Binary.ofFloat value).quotient.1 : ℚ) / (Binary.ofFloat value).quotient.2 := by
    positivity
  rw [valueOf_eq_quotient finite]
  split
  · rw [abs_neg, abs_of_nonneg nonneg]
  · exact abs_of_nonneg nonneg

/-- In exact arithmetic a finite double is its value. -/
theorem ofFloat_rat {value : Float} (finite : value.isFinite = true) :
    (Quantity.ofFloat value : ℚ) = valueOf value := by
  rw [valueOf_eq_quotient finite]
  show (Binary.ofFloat value).toRat = _
  simp only [Binary.toRat, Rat.mkRat_eq_div, Int.cast_natCast]

/-! ## Comparison -/

/-- Of two mantissas the one with the greater exponent stands for more, because only the least
exponent has mantissas without the leading digit. -/
theorem lt_of_exponent_lt {mantissa mantissa' : ℕ} {exponent exponent' : ℤ}
    (canonical : Canonical mantissa exponent) (canonical' : Canonical mantissa' exponent')
    (less : exponent < exponent') : (mantissa : ℚ) * 2 ^ exponent < mantissa' * 2 ^ exponent' := by
  have least := canonical.least_le
  have leading : 2 ^ 52 ≤ mantissa' := canonical'.leading.resolve_right (by omega)
  have step : (2 : ℚ) ^ (exponent + 1) ≤ 2 ^ exponent' := zpow_le_zpow_right₀ one_le_two (by omega)
  calc (mantissa : ℚ) * 2 ^ exponent
      < 2 ^ 53 * 2 ^ exponent :=
        mul_lt_mul_of_pos_right (by exact_mod_cast canonical.mantissa_lt) (by positivity)
    _ = 2 ^ 52 * 2 ^ (exponent + 1) := by
        rw [zpow_add_one₀ two_ne_zero]
        ring
    _ ≤ mantissa' * 2 ^ exponent' :=
        mul_le_mul (by exact_mod_cast leading) step (by positivity) (by positivity)

theorem compare_parts {mantissa mantissa' : ℕ} {exponent exponent' : ℤ}
    (canonical : Canonical mantissa exponent) (canonical' : Canonical mantissa' exponent') :
    (compare exponent exponent').then (compare mantissa mantissa') =
      compare ((mantissa : ℚ) * 2 ^ exponent) (mantissa' * 2 ^ exponent') := by
  rcases lt_trichotomy exponent exponent' with less | rfl | greater
  · rw [compare_lt_iff_lt.mpr less,
      compare_lt_iff_lt.mpr (lt_of_exponent_lt canonical canonical' less)]
    rfl
  · have same : compare exponent exponent = .eq := compare_eq_iff_eq.mpr rfl
    have units : StrictMono fun mantissa : ℕ => (mantissa : ℚ) * 2 ^ exponent := fun _ _ less =>
      mul_lt_mul_of_pos_right (by exact_mod_cast less) (by positivity)
    rw [same, ← cmp_eq_compare, ← cmp_eq_compare]
    exact (units.cmp_map_eq mantissa mantissa').symm
  · rw [compare_gt_iff_gt.mpr greater,
      compare_gt_iff_gt.mpr (lt_of_exponent_lt canonical' canonical greater)]
    rfl

theorem unpackedValue_positive {mantissa : ℕ} {exponent : ℤ} (positive : 0 < mantissa) :
    unpackedValue (.finite .positive mantissa exponent positive) = mantissa * 2 ^ exponent := rfl

theorem unpackedValue_negative {mantissa : ℕ} {exponent : ℤ} (positive : 0 < mantissa) :
    unpackedValue (.finite .negative mantissa exponent positive) = -(mantissa * 2 ^ exponent) := by
  simp [unpackedValue, Sign.apply]

theorem unpackedValue_pos {mantissa : ℕ} {exponent : ℤ} (positive : 0 < mantissa) :
    0 < unpackedValue (.finite .positive mantissa exponent positive) := by
  rw [unpackedValue_positive]
  positivity

theorem unpackedValue_neg {mantissa : ℕ} {exponent : ℤ} (positive : 0 < mantissa) :
    unpackedValue (.finite .negative mantissa exponent positive) < 0 := by
  rw [unpackedValue_negative, neg_lt_zero]
  positivity

/-- **Comparing finite doubles compares their values.** -/
theorem compare_eq_compare_valueOf {left right : Float} (finite : left.isFinite = true)
    (finite' : right.isFinite = true) :
    left.toModel.unpack.compare right.toModel.unpack =
      some (compare (valueOf left) (valueOf right)) := by
  have less {first second : ℚ} (less : first < second) : some (compare first second) = some .lt :=
    congrArg some (compare_lt_iff_lt.mpr less)
  have greater {first second : ℚ} (less : second < first) :
      some (compare first second) = some .gt := congrArg some (compare_gt_iff_gt.mpr less)
  rw [valueOf, valueOf]
  rcases isFinite_iff.mp finite with ⟨sign, read⟩ | ⟨sign, mantissa, exponent, positive, read⟩ <;>
    rcases isFinite_iff.mp finite' with
      ⟨sign', read'⟩ | ⟨sign', mantissa', exponent', positive', read'⟩ <;> rw [read, read']
  · rfl
  · cases sign' with
    | positive => exact (less (unpackedValue_pos positive')).symm
    | negative => exact (greater (unpackedValue_neg positive')).symm
  · cases sign with
    | positive => exact (greater (unpackedValue_pos positive)).symm
    | negative => exact (less (unpackedValue_neg positive)).symm
  · have parts := compare_parts (canonical_of_unpack read) (canonical_of_unpack read')
    cases sign <;> cases sign'
    · show some ((compare exponent exponent').then (compare mantissa mantissa')).swap = _
      rw [parts, unpackedValue_negative, unpackedValue_negative, ← cmp_eq_compare,
        ← cmp_eq_compare, cmp_swap]
      exact congrArg some (StrictAnti.cmp_map_eq (fun _ _ => neg_lt_neg) _ _).symm
    · exact (less ((unpackedValue_neg positive).trans (unpackedValue_pos positive'))).symm
    · exact (greater ((unpackedValue_neg positive').trans (unpackedValue_pos positive))).symm
    · exact congrArg some parts

variable {left right : Float}

theorem lt_iff_valueOf (finite : left.isFinite = true) (finite' : right.isFinite = true) :
    left < right ↔ valueOf left < valueOf right := by
  rw [lt_iff_compare, compare_eq_compare_valueOf finite finite', Option.some.injEq,
    compare_lt_iff_lt]

theorem le_iff_valueOf (finite : left.isFinite = true) (finite' : right.isFinite = true) :
    left ≤ right ↔ valueOf left ≤ valueOf right := by
  rw [le_iff_compare, compare_eq_compare_valueOf finite finite', Option.any_some,
    Ordering.isLE_iff_ne_gt]
  exact compare_le_iff_le

theorem beq_iff_valueOf (finite : left.isFinite = true) (finite' : right.isFinite = true) :
    (left == right) = true ↔ valueOf left = valueOf right := by
  show (left.toModel.unpack.compare right.toModel.unpack == some .eq) = true ↔ _
  rw [compare_eq_compare_valueOf finite finite', beq_iff_eq, Option.some.injEq,
    compare_eq_iff_eq]

/-! ## Signs -/

theorem unpack_pack_zero (sign : Sign) :
    unpack .binary64 (pack .binary64 (.zero sign)) = .zero sign := by
  cases sign <;> rfl

theorem abs_of_isFinite {value : Float} (finite : value.isFinite = true) :
    value.abs.isFinite = true ∧ valueOf value.abs = |valueOf value| := by
  have parts : value.abs.toModel.unpack =
      unpack .binary64 (pack .binary64 value.toModel.unpack.abs) := rfl
  rcases isFinite_iff.mp finite with ⟨sign, read⟩ | ⟨sign, mantissa, exponent, positive, read⟩
  · have read' : value.abs.toModel.unpack = .zero .positive := by
      rw [parts, read]
      exact unpack_pack_zero .positive
    refine ⟨isFinite_iff.mpr (.inl ⟨_, read'⟩), ?_⟩
    rw [valueOf_of_zero read, valueOf_of_zero read', abs_zero]
  · have read' : value.abs.toModel.unpack = .finite .positive mantissa exponent positive := by
      rw [parts, read]
      exact unpack_pack_finite read .positive
    refine ⟨isFinite_iff.mpr (.inr ⟨_, _, _, _, read'⟩), ?_⟩
    have above : 0 ≤ (mantissa : ℚ) * 2 ^ exponent := by positivity
    rw [valueOf, valueOf, read, read', unpackedValue_positive]
    cases sign with
    | positive => exact (abs_of_nonneg above).symm
    | negative => rw [unpackedValue_negative, abs_neg, abs_of_nonneg above]

theorem neg_of_isFinite {value : Float} (finite : value.isFinite = true) :
    (-value).isFinite = true ∧ valueOf (-value) = -valueOf value := by
  have parts : (-value).toModel.unpack =
      unpack .binary64 (pack .binary64 value.toModel.unpack.neg) := rfl
  rcases isFinite_iff.mp finite with ⟨sign, read⟩ | ⟨sign, mantissa, exponent, positive, read⟩
  · have read' : (-value).toModel.unpack = .zero (-sign) := by
      rw [parts, read]
      exact unpack_pack_zero (-sign)
    refine ⟨isFinite_iff.mpr (.inl ⟨_, read'⟩), ?_⟩
    rw [valueOf_of_zero read, valueOf_of_zero read', neg_zero]
  · have read' : (-value).toModel.unpack = .finite (-sign) mantissa exponent positive := by
      rw [parts, read]
      exact unpack_pack_finite read (-sign)
    refine ⟨isFinite_iff.mpr (.inr ⟨_, _, _, _, read'⟩), ?_⟩
    rw [valueOf, valueOf, read, read']
    cases sign with
    | positive => exact unpackedValue_negative positive
    | negative =>
        rw [unpackedValue_negative, neg_neg]
        exact unpackedValue_positive positive

end ChartCompiler
