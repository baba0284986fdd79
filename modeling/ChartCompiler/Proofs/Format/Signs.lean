import ChartCompiler.Proofs.Format.GroupedText
import ChartCompiler.Proofs.Format.ShortLabels
import ChartCompiler.Proofs.Number.WholeDoubles

/-!
# Signs of labels

A label should have a minus sign exactly when the value is negative and some digit that is shown is
not zero (`SignFits`).  Grouped numbers take care of that themselves.  The labels of axes and
tooltips group the magnitude and put the sign of the value in front, so a negative value whose
magnitude rounds to zero keeps its sign.  This is the only way the signs fail
(`ValueFormatter.signs_fit_iff`), and for each label it is said which values round to zero.

For a short label that takes a look at three roundings in a row: the division by the unit, the
count of tenths, and the division of that count by ten.  A magnitude from one twentieth on survives
all three, because one half is a double (`RoundsTo.le_of_multiple_le`), and a smaller one survives
none, because no double lies close enough below one twentieth to have its tenfold rounded up to one
half (`ten_mul_lt`).
-/

set_option autoImplicit false

namespace ChartCompiler

open Float.Model.UnpackedFloat

/-- A text has a minus sign exactly when the value is negative and a digit other than zero is
shown. -/
def SignFits (value : Float) (text : String) : Prop :=
  StartsWithMinus text ↔ value < 0 ∧ ShowsNonzero text

/-! ## Units around digits -/

theorem startsWithMinus_affix (unit : ValueUnit) (negative : Bool) {body : String} {first : Char}
    (starts : body.toList.head? = some first) (digit : first.isDigit = true) :
    StartsWithMinus (unit.affix negative body) ↔ negative = true := by
  have other : first ≠ '-' := ne_of_isDigit digit rfl
  rw [StartsWithMinus, ValueUnit.affix]
  simp only [String.toList_append, List.head?_append, starts]
  cases negative <;> cases unit <;> simp [ValueUnit.leading, other]

theorem showsNonzero_affix (unit : ValueUnit) (negative : Bool) (body : String) :
    ShowsNonzero (unit.affix negative body) ↔ ShowsNonzero body := by
  have sign : ∀ digit ∈ (if negative then "-" else "").toList, digit.isDigit = false := by
    cases negative <;> simp
  have leading : ∀ digit ∈ unit.leading.toList, digit.isDigit = false := by
    cases unit <;> simp [ValueUnit.leading]
  have trailing : ∀ digit ∈ unit.trailing.toList, digit.isDigit = false := by
    cases unit <;> simp [ValueUnit.trailing]
  rw [ShowsNonzero, ValueUnit.affix]
  simp only [String.toList_append, List.mem_append]
  constructor
  · rintro ⟨digit, ((member | member) | member) | member, numeric, nonzero⟩
    · rw [sign digit member] at numeric
      cases numeric
    · rw [leading digit member] at numeric
      cases numeric
    · exact ⟨digit, member, numeric, nonzero⟩
    · rw [trailing digit member] at numeric
      cases numeric
  · rintro ⟨digit, member, numeric, nonzero⟩
    exact ⟨digit, .inl (.inr member), numeric, nonzero⟩

/-- The sign of the value fits a magnitude with a unit unless a negative value shows zero. -/
theorem signFits_affix_iff (unit : ValueUnit) {value : Float} {body : String} {first : Char}
    (starts : body.toList.head? = some first) (digit : first.isDigit = true) :
    SignFits value (unit.affix (decide (value < Quantity.zero)) body) ↔
      ¬ (value < 0 ∧ ¬ ShowsNonzero body) := by
  rw [SignFits, startsWithMinus_affix unit _ starts digit, showsNonzero_affix, decide_eq_true_iff]
  show (value < 0 ↔ _) ↔ _
  tauto

/-! ## Magnitudes that round to zero -/

variable {value : Float}

theorem nearestUnits_eq_zero_iff (finite : value.isFinite = true) (places : ℕ) :
    Quantity.nearestUnits places value = 0 ↔ |valueOf value| * 10 ^ places ≤ 1 / 2 :=
  (nearest_nearestUnits finite places).eq_zero_iff

theorem not_lt_zero_of_abs (finite : value.isFinite = true) : ¬ value.abs < Quantity.zero := by
  obtain ⟨absFinite, absValue⟩ := abs_of_isFinite finite
  have zero := ofNat_exact 0 (by decide)
  show ¬ value.abs < Float.ofNat 0
  rw [lt_iff_valueOf absFinite zero.1, absValue, zero.2, Nat.cast_zero]
  exact (abs_nonneg _).not_gt

/-- A grouped magnitude starts with a digit. -/
theorem head?_groupedText_abs (finite : value.isFinite = true) (places : ℕ) :
    ∃ first, (groupedText value.abs places).toList.head? = some first ∧ first.isDigit = true := by
  obtain ⟨absFinite, -⟩ := abs_of_isFinite finite
  obtain ⟨first, starts, digit⟩ :=
    head?_digitsOf (Quantity.nearestUnits places value.abs / tenTo places)
  refine ⟨first, ?_, digit⟩
  rw [toList_groupedText absFinite, if_neg fun signed => not_lt_zero_of_abs finite signed.1,
    List.nil_append, List.head?_append, head?_groupDigits, starts]
  rfl

/-- A grouped magnitude shows zero when it is at most half a unit of the last place. -/
theorem showsNonzero_groupedText_abs (finite : value.isFinite = true) (places : ℕ) :
    ShowsNonzero (groupedText value.abs places) ↔ ¬ |valueOf value| * 10 ^ places ≤ 1 / 2 := by
  obtain ⟨absFinite, absValue⟩ := abs_of_isFinite finite
  rw [showsNonzero_groupedText absFinite, Ne, nearestUnits_eq_zero_iff absFinite, absValue, abs_abs]

/-! ## Short labels that show zero -/

theorem abs_sub_le_hundredth {number rounded : ℚ} (rounds : RoundsTo number rounded) :
    |rounded - number| ≤ |number| / 100 + 1 / 100 := by
  have relative : (2 : ℚ) ^ (-53 : ℤ) ≤ 1 / 100 := by norm_num
  have least : (2 : ℚ) ^ (-1075 : ℤ) ≤ 1 / 100 :=
    (zpow_le_zpow_right₀ one_le_two (by norm_num : (-1075 : ℤ) ≤ -53)).trans relative
  have scaled := mul_le_mul_of_nonneg_right relative (abs_nonneg number)
  exact rounds.abs_sub_le.trans (add_le_add (scaled.trans_eq (by ring)) least)

/-- A double below one twentieth leaves room between its tenfold and one half. -/
theorem ten_mul_lt (finite : value.isFinite = true) (small : valueOf value < 1 / 20) :
    valueOf value * 10 < 1 / 2 - 2 ^ (-55 : ℤ) := by
  have room : (2 : ℚ) ^ (-55 : ℤ) < 1 / 10 := by norm_num
  by_cases tiny : valueOf value < 1 / 32
  · linarith
  have above : 0 < valueOf value := by linarith
  rcases isFinite_iff.mp finite with ⟨sign, read⟩ | ⟨sign, mantissa, exponent, positive, read⟩
  · rw [valueOf_of_zero read] at above
    exact absurd above (lt_irrefl 0)
  · have magnitude := abs_valueOf_of_finite read
    rw [abs_of_pos above] at magnitude
    -- From one thirty-second on the last place of a double is `-57` or more.
    have place : -57 ≤ exponent := by
      by_contra less
      have step : (2 : ℚ) ^ exponent ≤ 2 ^ (-58 : ℤ) := zpow_le_zpow_right₀ one_le_two (by omega)
      have digits : (mantissa : ℚ) < 2 ^ 53 := by
        exact_mod_cast (canonical_of_unpack read).mantissa_lt
      have product : (mantissa : ℚ) * 2 ^ exponent < 2 ^ 53 * 2 ^ (-58 : ℤ) :=
        mul_lt_mul digits step (by positivity) (by positivity)
      norm_num at product
      linarith
    obtain ⟨units, same⟩ := exists_multiple mantissa place
    have power : (2 : ℚ) ^ (-57 : ℤ) = 1 / 2 ^ 57 := by norm_num
    rw [Int.cast_natCast, ← magnitude, power, mul_one_div] at same
    rw [same, div_lt_div_iff₀ (by positivity) (by norm_num), one_mul] at small
    have few : units * 20 < 2 ^ 57 := by exact_mod_cast small
    have fewer : units * 10 ≤ 2 ^ 56 - 6 := by omega
    have cast : (units : ℚ) * 10 ≤ 2 ^ 56 - 6 := by exact_mod_cast fewer
    have last : (2 : ℚ) ^ (-55 : ℤ) = 4 / 2 ^ 57 := by norm_num
    rw [same, last, div_mul_eq_mul_div, div_lt_iff₀ (by positivity)]
    linarith

/-- What stays that far below one half is not rounded up to it. -/
theorem RoundsTo.lt_half {number rounded : ℚ} (rounds : RoundsTo number rounded)
    (small : |number| < 1 / 2 - 2 ^ (-55 : ℤ)) : rounded < 1 / 2 := by
  obtain ⟨place, units, ⟨-, -, leading⟩, -, near⟩ := rounds
  have room : (0 : ℚ) < 2 ^ (-55 : ℤ) := by positivity
  have last : place ≤ -54 := by
    rcases leading with leading | rfl
    · have half : (2 : ℚ) ^ (-1 : ℤ) = 1 / 2 := by norm_num
      have below : (2 : ℚ) ^ (place + 52) < 2 ^ (-1 : ℤ) := by
        rw [half]
        linarith
      have := (zpow_lt_zpow_iff_right₀ one_lt_two).mp below
      omega
    · norm_num
  have step : (2 : ℚ) ^ place ≤ 2 ^ (-54 : ℤ) := zpow_le_zpow_right₀ one_le_two last
  have half : (2 : ℚ) ^ (-54 : ℤ) / 2 = 2 ^ (-55 : ℤ) := by norm_num
  have high := (abs_le.mp near).2
  calc rounded
      ≤ |number| + 2 ^ place / 2 := by linarith [le_abs_self number]
    _ ≤ |number| + 2 ^ (-54 : ℤ) / 2 := by gcongr
    _ < 1 / 2 := by
        rw [half]
        linarith

namespace Compact

/-- Whether the numeral of a short label is zero. -/
def ShowsZero (compact : Compact Float) : Prop :=
  Quantity.nearestUnits compact.places compact.mantissa = 0

variable {magnitude : Float}

theorem ten_exact : (Float.ofNat 10).isFinite = true ∧ valueOf (Float.ofNat 10) = 10 :=
  ofNat_exact 10 (by decide)

theorem scaled_rounds (finite : magnitude.isFinite = true) (size : ℕ) (positive : 0 < size)
    (short : size < 2 ^ 53) :
    (magnitude / Float.ofNat size).isFinite = true ∧
      RoundsTo (valueOf magnitude / size) (valueOf (magnitude / Float.ofNat size)) := by
  obtain ⟨sizeFinite, sizeValue⟩ := ofNat_exact size short
  have one_le : (1 : ℚ) ≤ size := by exact_mod_cast positive
  have nonzero : valueOf (Float.ofNat size) ≠ 0 := by
    rw [sizeValue]
    exact (one_pos.trans_le one_le).ne'
  have rounded := roundedTo_div finite sizeFinite nonzero
  rw [sizeValue] at rounded
  refine rounded.finite_of_abs_le finite ?_
  rw [abs_div, Nat.abs_cast]
  exact div_le_self (abs_nonneg _) one_le

/-- The mantissa of a magnitude in a unit: a whole number, or the rounded tenth of one. -/
theorem mantissa_inUnit_cases (finite : magnitude.isFinite = true) (nonneg : 0 ≤ valueOf magnitude)
    {unit : CompactUnit} (positive : 0 < unit.size) (short : unit.size < 2 ^ 53) :
    (inUnit magnitude unit).mantissa.isFinite = true ∧
      (10 ≤ valueOf (magnitude / Float.ofNat unit.size) ∧
          valueOf (inUnit magnitude unit).mantissa =
            nearestWhole (valueOf (magnitude / Float.ofNat unit.size)) ∨
        valueOf (magnitude / Float.ofNat unit.size) < 10 ∧ ∃ tenfold,
          RoundsTo (valueOf (magnitude / Float.ofNat unit.size) * 10) tenfold ∧
          RoundsTo ((nearestWhole tenfold : ℚ) / 10)
            (valueOf (inUnit magnitude unit).mantissa)) := by
  obtain ⟨scaledFinite, rounds⟩ := scaled_rounds finite _ positive short
  obtain ⟨tenFinite, tenValue⟩ := ten_exact
  have scaledNonneg := rounds.nonneg (by positivity)
  have large_iff : Float.ofNat 10 ≤ magnitude / Float.ofNat unit.size ↔
      10 ≤ valueOf (magnitude / Float.ofNat unit.size) := by
    rw [le_iff_valueOf tenFinite scaledFinite, tenValue]
  have mantissa_eq : (inUnit magnitude unit).mantissa =
      if Float.ofNat 10 ≤ magnitude / Float.ofNat unit.size then
        roundOf (magnitude / Float.ofNat unit.size)
      else roundOf (magnitude / Float.ofNat unit.size * Float.ofNat 10) / Float.ofNat 10 := rfl
  rw [mantissa_eq]
  by_cases large : 10 ≤ valueOf (magnitude / Float.ofNat unit.size)
  · obtain ⟨roundFinite, roundValue⟩ := roundOf_eq scaledFinite
    rw [if_pos (large_iff.mpr large)]
    exact ⟨roundFinite, .inl ⟨large, roundValue⟩⟩
  · obtain ⟨hundredFinite, hundredValue⟩ := ofNat_exact 100 (by decide)
    have product := roundedTo_mul scaledFinite tenFinite
    rw [tenValue] at product
    obtain ⟨productFinite, tenfold⟩ := product.finite_of_abs_le hundredFinite (by
      rw [hundredValue, abs_of_nonneg (by positivity), Nat.abs_cast]
      push_cast
      linarith [not_le.mp large])
    obtain ⟨roundFinite, roundValue⟩ := roundOf_eq productFinite
    have quotient := roundedTo_div roundFinite tenFinite (by rw [tenValue]; norm_num)
    rw [tenValue] at quotient
    obtain ⟨quotientFinite, tenth⟩ := quotient.finite_of_abs_le roundFinite (by
      rw [abs_div]
      exact div_le_self (abs_nonneg _) (by norm_num))
    rw [if_neg (mt large_iff.mp large)]
    rw [roundValue] at tenth
    exact ⟨quotientFinite, .inr ⟨not_le.mp large, _, tenfold, tenth⟩⟩

theorem places_inUnit_of_lt {unit : CompactUnit}
    (finite : (inUnit magnitude unit).mantissa.isFinite = true) :
    (inUnit magnitude unit).places =
      if valueOf (inUnit magnitude unit).mantissa < 10 then 1 else 0 := by
  obtain ⟨tenFinite, tenValue⟩ := ten_exact
  have less : (inUnit magnitude unit).mantissa < Float.ofNat 10 ↔
      valueOf (inUnit magnitude unit).mantissa < 10 := by
    rw [lt_iff_valueOf finite tenFinite, tenValue]
  exact if_congr less rfl rfl

/-- A rounded magnitude shows zero only if it is less than one tenth. -/
theorem not_showsZero_inUnit {unit : CompactUnit}
    (finite : (inUnit magnitude unit).mantissa.isFinite = true)
    (great : 1 / 16 ≤ valueOf (inUnit magnitude unit).mantissa) :
    ¬ (inUnit magnitude unit).ShowsZero := by
  rw [ShowsZero, nearestUnits_eq_zero_iff finite, places_inUnit_of_lt finite,
    abs_of_nonneg (le_trans (by norm_num) great), not_le]
  split
  · linarith
  · next large =>
    rw [pow_zero, mul_one]
    linarith

theorem one_half_le {number rounded : ℚ} (rounds : RoundsTo number rounded)
    (great : 1 / 2 ≤ number) : 1 / 2 ≤ rounded := by
  have half : ((1 : ℤ) : ℚ) * 2 ^ (-1 : ℤ) = 1 / 2 := by norm_num
  rw [← half] at great ⊢
  exact rounds.le_of_multiple_le _ _ (by norm_num) (by norm_num) (by norm_num) great

/-- **In a unit a magnitude shows zero when its rounded number of units is below one twentieth.** -/
theorem showsZero_inUnit_iff (finite : magnitude.isFinite = true) (nonneg : 0 ≤ valueOf magnitude)
    {unit : CompactUnit} (positive : 0 < unit.size) (short : unit.size < 2 ^ 53) :
    (inUnit magnitude unit).ShowsZero ↔
      valueOf (magnitude / Float.ofNat unit.size) < 1 / 20 := by
  obtain ⟨scaledFinite, rounds⟩ := scaled_rounds finite _ positive short
  have scaledNonneg := rounds.nonneg (by positivity)
  obtain ⟨mantissaFinite, ⟨large, whole⟩ | ⟨small, tenfold, tenfoldRounds, tenth⟩⟩ :=
    mantissa_inUnit_cases finite nonneg positive short
  · have ten_le : (10 : ℤ) ≤ nearestWhole (valueOf (magnitude / Float.ofNat unit.size)) := by
      rw [← follows_nearestWhole.whole 10]
      exact follows_nearestWhole.mono (by exact_mod_cast large)
    have great : (10 : ℚ) ≤ valueOf (inUnit magnitude unit).mantissa := by
      rw [whole]
      exact_mod_cast ten_le
    exact iff_of_false (not_showsZero_inUnit mantissaFinite (by linarith)) (by linarith)
  · have tenfoldNonneg := tenfoldRounds.nonneg (by positivity)
    have tenfold_eq : nearestWhole tenfold = ⌊tenfold + 1 / 2⌋ := if_pos tenfoldNonneg
    by_cases tiny : valueOf (magnitude / Float.ofNat unit.size) < 1 / 20
    · -- Not even half a tenth is left.
      have below : tenfold < 1 / 2 := tenfoldRounds.lt_half (by
        rw [abs_of_nonneg (by positivity)]
        exact ten_mul_lt scaledFinite tiny)
      have none : nearestWhole tenfold = 0 := by
        rw [tenfold_eq, Int.floor_eq_zero_iff]
        exact ⟨by linarith, by linarith⟩
      rw [none, Int.cast_zero, zero_div] at tenth
      have zero : valueOf (inUnit magnitude unit).mantissa = 0 := by
        rw [← Int.cast_zero, ← mul_one ((0 : ℤ) : ℚ), ← zpow_zero 2] at tenth
        rw [tenth.eq_of_multiple (by norm_num) (by norm_num), Int.cast_zero, zero_mul]
      refine iff_of_true ?_ tiny
      rw [ShowsZero, nearestUnits_eq_zero_iff mantissaFinite, zero]
      norm_num
    · have great : 1 / 2 ≤ tenfold := one_half_le tenfoldRounds (by linarith [not_lt.mp tiny])
      have some : 1 ≤ nearestWhole tenfold := by
        rw [tenfold_eq]
        exact Int.le_floor.mpr (by push_cast; linarith)
      have cast : (1 : ℚ) ≤ nearestWhole tenfold := by exact_mod_cast some
      have sixteenth : 1 / 16 ≤ valueOf (inUnit magnitude unit).mantissa := by
        have unit' : ((1 : ℤ) : ℚ) * 2 ^ (-4 : ℤ) = 1 / 16 := by norm_num
        rw [← unit']
        refine tenth.le_of_multiple_le _ _ (by norm_num) (by norm_num) (by norm_num) ?_
        rw [unit']
        linarith
      exact iff_of_false (not_showsZero_inUnit mantissaFinite sixteenth) tiny

/-! ### Choosing the unit -/

variable {unit next : CompactUnit} {rest : List CompactUnit}

/-- The sizes of units are doubles. -/
def Short (units : List CompactUnit) : Prop :=
  ∀ unit ∈ units, 0 < unit.size ∧ unit.size < 2 ^ 53

theorem not_showsZero_of_reached (finite : magnitude.isFinite = true)
    (nonneg : 0 ≤ valueOf magnitude) (positive : 0 < unit.size) (short : unit.size < 2 ^ 53)
    (reached : (unit.size : ℚ) ≤ 2 * valueOf magnitude) : ¬ (inUnit magnitude unit).ShowsZero := by
  obtain ⟨-, rounds⟩ := scaled_rounds finite _ positive short
  have size : (0 : ℚ) < unit.size := by exact_mod_cast positive
  have half : 1 / 2 ≤ valueOf magnitude / unit.size := by
    rw [div_le_div_iff₀ two_pos size]
    linarith
  rw [showsZero_inUnit_iff finite nonneg positive short, not_lt]
  exact le_trans (by norm_num) (one_half_le rounds half)

/-- A magnitude that rounds to a thousand of a unit is at least five hundred of it. -/
theorem reached_of_passed (finite : magnitude.isFinite = true) (nonneg : 0 ≤ valueOf magnitude)
    (positive : 0 < unit.size) (short : unit.size < 2 ^ 53)
    (passed : Quantity.ofNat 1000 ≤ (inUnit magnitude unit).mantissa) :
    (1000 * unit.size : ℚ) ≤ 2 * valueOf magnitude := by
  obtain ⟨thousandFinite, thousandValue⟩ := ofNat_exact 1000 (by decide)
  obtain ⟨-, rounds⟩ := scaled_rounds finite _ positive short
  have size : (0 : ℚ) < unit.size := by exact_mod_cast positive
  have units : 0 ≤ valueOf magnitude / unit.size := by positivity
  have scaledNonneg := rounds.nonneg units
  have scaled := (abs_le.mp (abs_sub_le_hundredth rounds)).2
  rw [abs_of_nonneg units] at scaled
  obtain ⟨mantissaFinite, parts⟩ := mantissa_inUnit_cases finite nonneg positive short
  have great : 1000 ≤ valueOf (inUnit magnitude unit).mantissa := by
    have compared := (le_iff_valueOf thousandFinite mantissaFinite).mp passed
    rw [thousandValue] at compared
    exact_mod_cast compared
  have enough : 500 ≤ valueOf magnitude / unit.size := by
    rcases parts with ⟨-, whole⟩ | ⟨small, tenfold, tenfoldRounds, tenth⟩
    · have near := (abs_le.mp (abs_nearestWhole_sub_le
        (valueOf (magnitude / Float.ofNat unit.size)))).2
      linarith
    · -- Tenths do not carry a number below ten that far.
      have product : 0 ≤ valueOf (magnitude / Float.ofNat unit.size) * 10 := by positivity
      have tenfoldNonneg := tenfoldRounds.nonneg product
      have tenfoldNear := (abs_le.mp (abs_sub_le_hundredth tenfoldRounds)).2
      have near := abs_le.mp (abs_nearestWhole_sub_le tenfold)
      have tenthNear := (abs_le.mp (abs_sub_le_hundredth tenth)).2
      have bound : |(nearestWhole tenfold : ℚ) / 10| ≤ 11 := by
        rw [abs_of_nonneg product] at tenfoldNear
        rw [abs_le]
        constructor <;> linarith [near.1, near.2]
      have upper := le_abs_self ((nearestWhole tenfold : ℚ) / 10)
      linarith
  rw [le_div_iff₀ size] at enough
  linarith

theorem not_showsZero_settle (finite : magnitude.isFinite = true) (nonneg : 0 ≤ valueOf magnitude)
    (short : Short (unit :: rest)) (ascend : Ascend (unit :: rest))
    (reached : (unit.size : ℚ) ≤ 2 * valueOf magnitude) :
    ¬ (settle magnitude unit rest).ShowsZero := by
  induction rest generalizing unit with
  | nil =>
      obtain ⟨positive, few⟩ := short unit List.mem_cons_self
      exact not_showsZero_of_reached finite nonneg positive few reached
  | cons next rest ih =>
      obtain ⟨⟨positive, few⟩, short'⟩ := List.forall_mem_cons.mp short
      obtain ⟨size, ascend'⟩ := List.isChain_cons_cons.mp ascend
      rw [settle]
      split
      · next passed =>
          have reached' := reached_of_passed finite nonneg positive few passed
          have sizeCast : (next.size : ℚ) = 1000 * unit.size := by exact_mod_cast size
          exact ih short' ascend' (sizeCast ▸ reached')
      · exact not_showsZero_of_reached finite nonneg positive few reached

theorem not_showsZero_choose (finite : magnitude.isFinite = true) (nonneg : 0 ≤ valueOf magnitude)
    (short : Short (unit :: rest)) (ascend : Ascend (unit :: rest))
    (reached : (unit.size : ℚ) ≤ 2 * valueOf magnitude) :
    ¬ (Compact.choose magnitude unit rest).ShowsZero := by
  induction rest generalizing unit with
  | nil =>
      obtain ⟨positive, few⟩ := short unit List.mem_cons_self
      exact not_showsZero_of_reached finite nonneg positive few reached
  | cons next rest ih =>
      have short' : Short (next :: rest) := (List.forall_mem_cons.mp short).2
      rw [Compact.choose]
      split
      · next above =>
          obtain ⟨sizeFinite, sizeValue⟩ := ofNat_exact _ (short' next List.mem_cons_self).2
          have compared := (le_iff_valueOf sizeFinite finite).mp above
          rw [sizeValue] at compared
          exact ih short' (List.isChain_cons_cons.mp ascend).2 (by linarith)
      · exact not_showsZero_settle finite nonneg short ascend reached

theorem short_larger : Short (CompactUnit.one :: CompactUnit.larger) := by
  unfold Short
  decide

/-- **A short label shows zero when the magnitude is below one twentieth.** -/
theorem showsZero_of_iff (finite : magnitude.isFinite = true) (nonneg : 0 ≤ valueOf magnitude) :
    (Compact.of magnitude).ShowsZero ↔ valueOf magnitude < 1 / 20 := by
  have one : CompactUnit.one.size = 1 := rfl
  by_cases reached : (CompactUnit.one.size : ℚ) ≤ 2 * valueOf magnitude
  · refine iff_of_false (not_showsZero_choose finite nonneg short_larger ascend_larger reached) ?_
    rw [one, Nat.cast_one] at reached
    linarith
  · obtain ⟨thousandFinite, thousandValue⟩ := ofNat_exact 1000 (by decide)
    have notAbove : ¬ Quantity.ofNat 1000 ≤ magnitude := by
      intro above
      have compared := (le_iff_valueOf thousandFinite finite).mp above
      rw [thousandValue] at compared
      rw [one] at reached
      push_cast at compared reached
      linarith
    have notPassed : ¬ Quantity.ofNat 1000 ≤ (inUnit magnitude CompactUnit.one).mantissa := by
      intro passed
      have enough := reached_of_passed finite nonneg (by decide) (by decide) passed
      rw [one] at reached enough
      push_cast at enough reached
      linarith
    have chosen : Compact.of magnitude = inUnit magnitude CompactUnit.one :=
      (if_neg notAbove).trans (if_neg notPassed)
    obtain ⟨-, rounds⟩ := scaled_rounds finite 1 (by decide) (by decide)
    have scaled : valueOf (magnitude / Float.ofNat 1) = valueOf magnitude := by
      rw [Nat.cast_one, div_one] at rounds
      exact rounds.eq_valueOf finite
    rw [chosen, showsZero_inUnit_iff finite nonneg (by decide) (by decide), one, scaled]

theorem unit_settle_mem (magnitude : Float) (unit : CompactUnit) (rest : List CompactUnit) :
    (settle magnitude unit rest).unit ∈ unit :: rest := by
  induction rest generalizing unit with
  | nil => exact List.mem_cons_self
  | cons next rest ih =>
      rw [settle]
      split
      · exact List.mem_cons_of_mem unit (ih next)
      · exact List.mem_cons_self

theorem unit_choose_mem (magnitude : Float) (unit : CompactUnit) (rest : List CompactUnit) :
    (Compact.choose magnitude unit rest).unit ∈ unit :: rest := by
  induction rest generalizing unit with
  | nil => exact List.mem_cons_self
  | cons next rest ih =>
      rw [Compact.choose]
      split
      · exact List.mem_cons_of_mem unit (ih next)
      · exact unit_settle_mem magnitude unit (next :: rest)

theorem toList_text (compact : Compact Float) :
    compact.text.toList =
      digitsOf (Quantity.nearestUnits compact.places compact.mantissa / tenTo compact.places) ++
        pointed (placeDigits compact.places
          (Quantity.nearestUnits compact.places compact.mantissa)) ++
        compact.unit.mark.toList := by
  rw [text, Quantity.fixedText, String.toList_append, toList_placesText]

/-- The text of a short label starts with a digit. -/
theorem head?_text (compact : Compact Float) :
    ∃ first, compact.text.toList.head? = some first ∧ first.isDigit = true := by
  obtain ⟨first, starts, digit⟩ := head?_digitsOf
    (Quantity.nearestUnits compact.places compact.mantissa / tenTo compact.places)
  refine ⟨first, ?_, digit⟩
  rw [toList_text, List.append_assoc, List.head?_append, starts]
  rfl

theorem showsNonzero_text_of (magnitude : Float) :
    ShowsNonzero (Compact.of magnitude).text ↔ ¬ (Compact.of magnitude).ShowsZero := by
  have marks : ∀ unit ∈ CompactUnit.one :: CompactUnit.larger,
      ∀ digit ∈ unit.mark.toList, digit.isDigit = false := by
    simp [CompactUnit.one, CompactUnit.larger]
  have mark := marks _ (unit_choose_mem magnitude CompactUnit.one CompactUnit.larger)
  refine showsNonzero_iff (Compact.of magnitude).places fun digit numeric _ => ?_
  have noMark : digit ∉ (Compact.of magnitude).unit.mark.toList := by
    intro member
    rw [mark digit member] at numeric
    cases numeric
  rw [toList_text, List.mem_append, or_iff_left noMark, List.mem_append, List.mem_append,
    mem_pointed _ (ne_of_isDigit numeric rfl)]

end Compact

/-! ## Labels of values -/

namespace ValueFormatter

variable (formatter : ValueFormatter)

/-- **A grouped number, a tooltip and an axis label have the sign that fits, with one exception:** a
negative value whose magnitude rounds to zero keeps its sign in a tooltip and on an axis.  In a
tooltip and below the threshold of an axis that is at most half a unit of the last decimal; on an
axis from the threshold on it is less than one twentieth. -/
theorem signs_fit_iff {value : Float} (finite : value.isFinite = true) (places : ℕ) :
    SignFits value (groupedText value places) ∧
      (SignFits value (formatter.tooltip value) ↔
        ¬ (value < 0 ∧ |valueOf value| * 10 ^ formatter.decimals ≤ 1 / 2)) ∧
      (SignFits value (formatter.axis value) ↔
        ¬ (value < 0 ∧ if value.abs < formatter.compactThreshold then
          |valueOf value| * 10 ^ 2 ≤ 1 / 2 else |valueOf value| < 1 / 20)) := by
  obtain ⟨absFinite, absValue⟩ := abs_of_isFinite finite
  refine ⟨startsWithMinus_groupedText finite places, ?_, ?_⟩
  · obtain ⟨first, starts, digit⟩ := head?_groupedText_abs finite formatter.decimals
    have label : formatter.tooltip value =
        formatter.unit.affix (decide (value < Quantity.zero))
          (groupedText value.abs formatter.decimals) := if_pos finite
    rw [label, signFits_affix_iff _ starts digit, showsNonzero_groupedText_abs finite, not_not]
  · have label : formatter.axis value =
        formatter.unit.affix (decide (value < Quantity.zero))
          (if value.abs < formatter.compactThreshold then groupedText value.abs 2
            else (Compact.of value.abs).text) := if_pos finite
    rw [label]
    split
    · obtain ⟨first, starts, digit⟩ := head?_groupedText_abs finite 2
      rw [signFits_affix_iff _ starts digit, showsNonzero_groupedText_abs finite, not_not]
    · obtain ⟨first, starts, digit⟩ := Compact.head?_text (Compact.of value.abs)
      have nonneg : 0 ≤ valueOf value.abs := absValue ▸ abs_nonneg _
      rw [signFits_affix_iff _ starts digit, Compact.showsNonzero_text_of, not_not,
        Compact.showsZero_of_iff absFinite nonneg, absValue]

/-- A thousandth below zero is plain zero as a grouped number but keeps its sign in labels. -/
theorem signs_fit_iff_of_thousandth :
    SignFits (-0.001) (groupedText (-0.001 : Float) 2) ∧
      ¬ SignFits (-0.001) (({} : ValueFormatter).tooltip (-0.001 : Float)) ∧
      ¬ SignFits (-0.001) (({} : ValueFormatter).axis (-0.001 : Float)) := by
  have finite : (-0.001 : Float).isFinite = true := by decide +kernel
  have negative : (-0.001 : Float) < 0 := by decide +kernel
  have below : (-0.001 : Float).abs < ({} : ValueFormatter).compactThreshold := by decide +kernel
  have small : |valueOf (-0.001)| * 10 ^ 2 ≤ 1 / 2 := by
    rw [abs_valueOf finite]
    decide +kernel
  obtain ⟨grouped, tooltip, axis⟩ := signs_fit_iff {} finite 2
  refine ⟨grouped, fun fits => tooltip.mp fits ⟨negative, small⟩, fun fits => ?_⟩
  rw [if_pos below] at axis
  exact axis.mp fits ⟨negative, small⟩

/-- A thousandth below zero is labelled as a negative zero. -/
theorem negative_zero_of_thousandth :
    ({} : ValueFormatter).axis (-0.001 : Float) = "-0" ∧
      ({} : ValueFormatter).tooltip (-0.001 : Float) = "-0" ∧ ¬ SignFits (-0.001) "-0" := by
  refine ⟨by decide +kernel, by decide +kernel, fun fits => ?_⟩
  obtain ⟨-, digit, member, numeric, nonzero⟩ := fits.mp (by simp [StartsWithMinus])
  simp only [String.reduceToList, List.mem_cons, List.not_mem_nil, or_false] at member
  rcases member with rfl | rfl
  · cases numeric
  · exact nonzero rfl

end ValueFormatter

end ChartCompiler
