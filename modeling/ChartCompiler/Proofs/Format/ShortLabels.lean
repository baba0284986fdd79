import ChartCompiler.Format.Value
import ChartCompiler.Proofs.Number.Nearest
import ChartCompiler.Proofs.Number.Places

/-!
# Short labels round well

From a threshold on, the label of a magnitude on an axis is a numeral and the mark of a unit.  In
exact arithmetic the numeral is the nearest one that the number of places allows, it stays below a
thousand unless there is no larger unit, and it does not fall below one in a larger unit than need
be (`ShortLabel.Rounds`).  A label that rounding carries into the next unit starts there with one,
so larger magnitudes never show smaller numbers (`number_mono`).

Rounding happens on the number of units, in tenths below ten and in whole units from ten on.  Both
rules agree at ten, which makes the rounded number monotone (`roundedUnits_mono`).
-/

set_option autoImplicit false

namespace ChartCompiler

/-! ## What a short label says -/

/-- A short label taken apart: a number of units of its last decimal place, and the unit that
stands behind it. -/
structure ShortLabel where
  /-- The number of decimals. -/
  places : ℕ
  /-- The numeral without its point. -/
  digits : ℕ
  /-- The unit. -/
  unit : CompactUnit

namespace ShortLabel

/-- The number in front of the unit. -/
def mantissa (label : ShortLabel) : ℚ :=
  label.digits / 10 ^ label.places

/-- The number the label shows. -/
def number (label : ShortLabel) : ℚ :=
  label.mantissa * label.unit.size

/-- A text is the whole part of the number in front of the unit, its decimals behind a point if
there are any, and the mark of the unit. -/
def Spells (label : ShortLabel) (text : String) : Prop :=
  ∃ decimals : List Char, decimals.length = label.places ∧
    (∀ digit ∈ decimals, digit.isDigit = true) ∧
    Nat.ofDigitChars 10 decimals 0 = label.digits % 10 ^ label.places ∧
    text = toString (label.digits / 10 ^ label.places) ++
      (if label.places = 0 then "" else "." ++ String.ofList decimals) ++ label.unit.mark

/-- The label stands for a magnitude. -/
structure Rounds (label : ShortLabel) (magnitude : ℚ) : Prop where
  /-- The unit is single ones, thousands, millions or billions. -/
  listed : (label.unit.mark, label.unit.size) ∈
    [("", 1), ("K", 1000), ("M", 1000000), ("B", 1000000000)]
  /-- There is one decimal below ten and none from ten on. -/
  places_eq : label.places = if label.mantissa < 10 then 1 else 0
  /-- A thousand of a unit is written with the next one, if there is one. -/
  below : label.unit.mark = "B" ∨ label.mantissa < 1000
  /-- A larger unit than single ones is reached. -/
  reached : label.unit.mark = "" ∨ 1 ≤ label.mantissa
  /-- The number shown is off by at most half a unit of the last place. -/
  near : |label.number - magnitude| ≤ label.unit.size / 10 ^ label.places / 2

end ShortLabel

/-! ## Rounding a number of units -/

/-- A number of units rounded to tenths below ten and to whole units from ten on. -/
def roundedUnits (scaled : ℚ) : ℚ :=
  if 10 ≤ scaled then (⌊scaled + 1 / 2⌋ : ℚ) else (⌊scaled * 10 + 1 / 2⌋ : ℚ) / 10

theorem roundedUnits_of_le {scaled : ℚ} (large : 10 ≤ scaled) :
    roundedUnits scaled = ⌊scaled + 1 / 2⌋ :=
  if_pos large

theorem roundedUnits_of_lt {scaled : ℚ} (small : scaled < 10) :
    roundedUnits scaled = (⌊scaled * 10 + 1 / 2⌋ : ℚ) / 10 :=
  if_neg small.not_ge

/-- Tenths do not carry a number below ten over ten. -/
theorem roundedUnits_le_ten {scaled : ℚ} (small : scaled < 10) : roundedUnits scaled ≤ 10 := by
  have tenths : ⌊scaled * 10 + 1 / 2⌋ ≤ 100 := Int.floor_le_iff.mpr (by norm_num; linarith)
  have cast : (⌊scaled * 10 + 1 / 2⌋ : ℚ) ≤ 100 := by exact_mod_cast tenths
  rw [roundedUnits_of_lt small]
  linarith

theorem le_roundedUnits {whole : ℤ} {scaled : ℚ} (atLeast : 10 ≤ whole) (reached : whole ≤ scaled) :
    (whole : ℚ) ≤ roundedUnits scaled := by
  have large : (10 : ℚ) ≤ scaled := le_trans (by exact_mod_cast atLeast) reached
  have floor : whole ≤ ⌊scaled + 1 / 2⌋ := Int.le_floor.mpr (by linarith)
  rw [roundedUnits_of_le large]
  exact_mod_cast floor

theorem roundedUnits_mono : Monotone roundedUnits := by
  intro scaled scaled' le
  by_cases large : 10 ≤ scaled
  · rw [roundedUnits_of_le large, roundedUnits_of_le (large.trans le)]
    exact_mod_cast Int.floor_mono (by linarith)
  · push Not at large
    by_cases large' : 10 ≤ scaled'
    · exact (roundedUnits_le_ten large).trans (by exact_mod_cast le_roundedUnits le_rfl large')
    · push Not at large'
      have tenths : ⌊scaled * 10 + 1 / 2⌋ ≤ ⌊scaled' * 10 + 1 / 2⌋ := Int.floor_mono (by linarith)
      have cast : (⌊scaled * 10 + 1 / 2⌋ : ℚ) ≤ ⌊scaled' * 10 + 1 / 2⌋ := by exact_mod_cast tenths
      rw [roundedUnits_of_lt large, roundedUnits_of_lt large']
      linarith

/-- A number that rounds to a thousand units is at least one of the next unit, after rounding. -/
theorem one_le_roundedUnits {scaled : ℚ} (reached : 1000 ≤ roundedUnits scaled) :
    1 ≤ roundedUnits (scaled / 1000) := by
  have large : 10 ≤ scaled := by
    by_contra small
    push Not at small
    linarith [roundedUnits_le_ten small]
  have floor : 1000 ≤ ⌊scaled + 1 / 2⌋ := by
    rw [roundedUnits_of_le large] at reached
    exact_mod_cast reached
  have nearly : 1 - 1 / 20 ≤ scaled / 1000 := by
    have bound : ((1000 : ℤ) : ℚ) ≤ scaled + 1 / 2 := Int.le_floor.mp floor
    norm_num at bound
    linarith
  have one : roundedUnits (1 - 1 / 20) = 1 := by
    rw [roundedUnits_of_lt (by norm_num)]
    norm_num
  exact one.symm.le.trans (roundedUnits_mono nearly)

/-- The number of decimals that a rounded number is written with. -/
def placesFor (rounded : ℚ) : ℕ :=
  if rounded < 10 then 1 else 0

/-- With its decimals a rounded number has only whole units of the last place. -/
theorem exists_digits_roundedUnits {scaled : ℚ} (nonneg : 0 ≤ scaled) :
    ∃ digits : ℕ, roundedUnits scaled * 10 ^ placesFor (roundedUnits scaled) = digits := by
  by_cases large : 10 ≤ scaled
  · have rounded : 10 ≤ roundedUnits scaled := by exact_mod_cast le_roundedUnits le_rfl large
    have whole : 0 ≤ ⌊scaled + 1 / 2⌋ := Int.floor_nonneg.mpr (by linarith)
    refine ⟨⌊scaled + 1 / 2⌋.toNat, ?_⟩
    rw [placesFor, if_neg rounded.not_gt, roundedUnits_of_le large, pow_zero, mul_one]
    exact_mod_cast (Int.toNat_of_nonneg whole).symm
  · push Not at large
    by_cases small : roundedUnits scaled < 10
    · have whole : 0 ≤ ⌊scaled * 10 + 1 / 2⌋ := Int.floor_nonneg.mpr (by linarith)
      refine ⟨⌊scaled * 10 + 1 / 2⌋.toNat, ?_⟩
      rw [placesFor, if_pos small, roundedUnits_of_lt large, pow_one,
        div_mul_cancel₀ _ (by norm_num)]
      exact_mod_cast (Int.toNat_of_nonneg whole).symm
    · -- Tenths carry to ten exactly.
      have ten : roundedUnits scaled = 10 := (roundedUnits_le_ten large).antisymm (not_lt.mp small)
      exact ⟨10, by rw [placesFor, if_neg small, ten]; norm_num⟩

theorem abs_floor_add_half_sub_le (value : ℚ) : |(⌊value + 1 / 2⌋ : ℚ) - value| ≤ 1 / 2 := by
  have low := Int.floor_le (value + 1 / 2)
  have high := Int.lt_floor_add_one (value + 1 / 2)
  rw [abs_le]
  constructor <;> linarith

theorem abs_roundedUnits_sub_le (scaled : ℚ) :
    |roundedUnits scaled - scaled| ≤ 1 / 10 ^ placesFor (roundedUnits scaled) / 2 := by
  by_cases large : 10 ≤ scaled
  · have rounded : 10 ≤ roundedUnits scaled := by exact_mod_cast le_roundedUnits le_rfl large
    rw [placesFor, if_neg rounded.not_gt, roundedUnits_of_le large, pow_zero, div_one]
    exact abs_floor_add_half_sub_le scaled
  · push Not at large
    have tenths : |roundedUnits scaled - scaled| ≤ 1 / 20 := by
      have near := abs_floor_add_half_sub_le (scaled * 10)
      rw [roundedUnits_of_lt large, abs_le] at *
      constructor <;> linarith [near.1, near.2]
    refine tenths.trans ?_
    rw [placesFor]
    split <;> norm_num

/-! ## Rounding in a unit -/

namespace Compact

theorem mantissa_inUnit {magnitude : ℚ} (nonneg : 0 ≤ magnitude) (unit : CompactUnit) :
    (inUnit magnitude unit).mantissa = roundedUnits (magnitude / unit.size) := by
  have scaled : 0 ≤ magnitude / unit.size := div_nonneg nonneg (Nat.cast_nonneg _)
  have whole {value : ℚ} (nonneg : 0 ≤ value) : Quantity.round value = (⌊value + 1 / 2⌋ : ℚ) :=
    if_pos nonneg
  show (if (10 : ℚ) ≤ magnitude / unit.size then Quantity.round (magnitude / unit.size)
    else Quantity.round (magnitude / unit.size * 10) / 10) = _
  rw [whole scaled, whole (by positivity)]
  rfl

theorem places_inUnit (magnitude : ℚ) (unit : CompactUnit) :
    (inUnit magnitude unit).places = placesFor (inUnit magnitude unit).mantissa := rfl

end Compact

/-- What is a whole number of units needs no rounding. -/
theorem nearestUnits_of_whole {places units : ℕ} {value : ℚ}
    (whole : |value| * 10 ^ places = units) : Quantity.nearestUnits places value = units :=
  (whole ▸ nearest_nearestUnits_rat places value).eq_of_whole

namespace Compact

/-! ## Choosing the unit -/

/-- Each of some units is a thousand of the one before. -/
def Ascend (units : List CompactUnit) : Prop :=
  units.IsChain fun unit next => next.size = 1000 * unit.size

theorem ascend_larger : Ascend (CompactUnit.one :: CompactUnit.larger) := by
  unfold Ascend
  decide

variable {magnitude magnitude' : ℚ} {unit next : CompactUnit} {rest : List CompactUnit}

/-- The number that a rounded magnitude stands for. -/
def number (compact : Compact ℚ) : ℚ :=
  compact.mantissa * compact.unit.size

/-- A unit that is reached is passed to by rounding too, so starting from the least unit makes no
difference. -/
theorem choose_eq_settle_of_ascend (nonneg : 0 ≤ magnitude) (positive : 0 < unit.size)
    (ascend : Ascend (unit :: rest)) :
    Compact.choose magnitude unit rest = settle magnitude unit rest := by
  induction rest generalizing unit with
  | nil => rfl
  | cons next rest ih =>
      obtain ⟨size, ascend'⟩ := List.isChain_cons_cons.mp ascend
      have positive' : 0 < next.size := by omega
      rw [Compact.choose, settle]
      by_cases reached : Quantity.ofNat next.size ≤ magnitude
      · have thousand : (1000 : ℤ) ≤ magnitude / unit.size := by
          have bound : ((next.size : ℕ) : ℚ) ≤ magnitude := reached
          rw [le_div_iff₀ (by exact_mod_cast positive)]
          rw [size] at bound
          push_cast at bound ⊢
          exact bound
        have passed : Quantity.ofNat 1000 ≤ (inUnit magnitude unit).mantissa := by
          rw [mantissa_inUnit nonneg]
          exact le_roundedUnits (by norm_num) thousand
        rw [if_pos reached, if_pos passed, ih positive' ascend']
      · rw [if_neg reached]

/-- A magnitude that rounds to a thousand of a unit is at least one of the next. -/
theorem one_le_mantissa_of_passed (nonneg : 0 ≤ magnitude) (size : next.size = 1000 * unit.size)
    (passed : Quantity.ofNat 1000 ≤ (inUnit magnitude unit).mantissa) :
    1 ≤ (inUnit magnitude next).mantissa := by
  rw [mantissa_inUnit nonneg] at passed ⊢
  have scaled : magnitude / next.size = magnitude / unit.size / 1000 := by
    rw [size, div_div]
    push_cast
    rw [mul_comm]
  rw [scaled]
  exact one_le_roundedUnits passed

/-- The unit in which a magnitude settles: it is not left for a larger one, and it is reached unless
it is the first. -/
theorem exists_settle (nonneg : 0 ≤ magnitude) (ascend : Ascend (unit :: rest)) :
    ∃ chosen ∈ unit :: rest, settle magnitude unit rest = inUnit magnitude chosen ∧
      (chosen ∈ (unit :: rest).getLast? ∨ (inUnit magnitude chosen).mantissa < 1000) ∧
      (chosen = unit ∨ 1 ≤ (inUnit magnitude chosen).mantissa) := by
  induction rest generalizing unit with
  | nil => exact ⟨unit, List.mem_cons_self, rfl, .inl rfl, .inl rfl⟩
  | cons next rest ih =>
      obtain ⟨size, ascend'⟩ := List.isChain_cons_cons.mp ascend
      rw [settle]
      by_cases passed : Quantity.ofNat 1000 ≤ (inUnit magnitude unit).mantissa
      · obtain ⟨chosen, member, same, kept, reached⟩ := ih ascend'
        have first := one_le_mantissa_of_passed nonneg size passed
        rw [if_pos passed, List.getLast?_cons_cons]
        refine ⟨chosen, List.mem_cons_of_mem _ member, same, kept, .inr ?_⟩
        rcases reached with rfl | reached
        · exact first
        · exact reached
      · rw [if_neg passed]
        exact ⟨unit, List.mem_cons_self, rfl, .inr (not_le.mp passed), .inl rfl⟩

theorem size_le_number_settle (nonneg : 0 ≤ magnitude) (ascend : Ascend (unit :: rest))
    (reached : 1 ≤ (inUnit magnitude unit).mantissa) :
    (unit.size : ℚ) ≤ (settle magnitude unit rest).number := by
  have here : (unit.size : ℚ) ≤ (inUnit magnitude unit).number :=
    le_mul_of_one_le_left (Nat.cast_nonneg _) reached
  induction rest generalizing unit with
  | nil => exact here
  | cons next rest ih =>
      obtain ⟨size, ascend'⟩ := List.isChain_cons_cons.mp ascend
      rw [settle]
      split
      · next passed =>
          have reached' := one_le_mantissa_of_passed nonneg size passed
          have larger : (unit.size : ℚ) ≤ next.size := by
            exact_mod_cast size ▸ Nat.le_mul_of_pos_left _ (by decide)
          exact larger.trans (ih ascend' reached'
            (le_mul_of_one_le_left (Nat.cast_nonneg _) reached'))
      · exact here

theorem mantissa_inUnit_mono (nonneg : 0 ≤ magnitude) (le : magnitude ≤ magnitude') :
    (inUnit magnitude unit).mantissa ≤ (inUnit magnitude' unit).mantissa := by
  rw [mantissa_inUnit nonneg, mantissa_inUnit (nonneg.trans le)]
  exact roundedUnits_mono (div_le_div_of_nonneg_right le (Nat.cast_nonneg _))

/-- Of two magnitudes the larger one settles at a number that is not smaller, wherever rounding
carries either of them. -/
theorem number_settle_mono (nonneg : 0 ≤ magnitude) (le : magnitude ≤ magnitude')
    (ascend : Ascend (unit :: rest)) :
    (settle magnitude unit rest).number ≤ (settle magnitude' unit rest).number := by
  have mantissas (unit : CompactUnit) :
      (inUnit magnitude unit).mantissa ≤ (inUnit magnitude' unit).mantissa :=
    mantissa_inUnit_mono nonneg le
  have here (unit : CompactUnit) :
      (inUnit magnitude unit).number ≤ (inUnit magnitude' unit).number :=
    mul_le_mul_of_nonneg_right (mantissas unit) (Nat.cast_nonneg _)
  induction rest generalizing unit with
  | nil => exact here unit
  | cons next rest ih =>
      obtain ⟨size, ascend'⟩ := List.isChain_cons_cons.mp ascend
      rw [settle, settle]
      split <;> split
      · exact ih ascend'
      · next passed kept => exact absurd (passed.trans (mantissas unit)) kept
      · -- Only the larger one is carried on: it shows at least one of the next unit.
        next kept passed =>
          have below : (inUnit magnitude unit).mantissa ≤ 1000 := (not_le.mp kept).le
          have cast : (next.size : ℚ) = 1000 * unit.size := by exact_mod_cast size
          calc (inUnit magnitude unit).number
              ≤ 1000 * unit.size := mul_le_mul_of_nonneg_right below (Nat.cast_nonneg _)
            _ = next.size := cast.symm
            _ ≤ _ := size_le_number_settle (nonneg.trans le) ascend'
                (one_le_mantissa_of_passed (nonneg.trans le) size passed)
      · exact here unit

end Compact

/-! ## The label of a magnitude -/

namespace ShortLabel

/-- A rounded magnitude as it is written. -/
def ofCompact (compact : Compact ℚ) : ShortLabel :=
  ⟨compact.places, Quantity.nearestUnits compact.places compact.mantissa, compact.unit⟩

/-- The short label of a magnitude. -/
def ofMagnitude (magnitude : ℚ) : ShortLabel :=
  ofCompact (Compact.of magnitude)

variable {magnitude magnitude' : ℚ}

theorem spells_text (compact : Compact ℚ) : (ofCompact compact).Spells compact.text := by
  let units := Quantity.nearestUnits compact.places compact.mantissa
  have value : Nat.ofDigitChars 10 (placeDigits compact.places units) 0 =
      units % 10 ^ compact.places := by
    rw [← digitsValue_eq, digitsValue_placeDigits]
    rfl
  exact ⟨placeDigits compact.places units, length_placeDigits _ _,
    fun _ => isDigit_of_mem_placeDigits, value,
    congrArg (· ++ compact.unit.mark) (placesText_eq compact.places units)⟩

/-- Writing a rounded number loses nothing. -/
theorem mantissa_ofCompact_inUnit (nonneg : 0 ≤ magnitude) (unit : CompactUnit) :
    (ofCompact (Compact.inUnit magnitude unit)).mantissa =
      (Compact.inUnit magnitude unit).mantissa := by
  have scaled : 0 ≤ magnitude / unit.size := div_nonneg nonneg (Nat.cast_nonneg _)
  have rounded : 0 ≤ roundedUnits (magnitude / unit.size) := by
    have zero : roundedUnits 0 = 0 := by rw [roundedUnits_of_lt (by norm_num)]; norm_num
    exact zero.symm.le.trans (roundedUnits_mono scaled)
  obtain ⟨digits, whole⟩ := exists_digits_roundedUnits scaled
  have written : (ofCompact (Compact.inUnit magnitude unit)).digits = digits := by
    refine nearestUnits_of_whole ?_
    rw [Compact.places_inUnit, Compact.mantissa_inUnit nonneg, abs_of_nonneg rounded]
    exact whole
  rw [mantissa, written, ← whole, Compact.mantissa_inUnit nonneg]
  show _ / 10 ^ (Compact.inUnit magnitude unit).places = _
  rw [Compact.places_inUnit, Compact.mantissa_inUnit nonneg]
  exact mul_div_cancel_right₀ _ (pow_ne_zero _ (by norm_num))

theorem near_inUnit (nonneg : 0 ≤ magnitude) {unit : CompactUnit} (positive : 0 < unit.size) :
    |(Compact.inUnit magnitude unit).number - magnitude| ≤
      unit.size / 10 ^ (Compact.inUnit magnitude unit).places / 2 := by
  have size : (0 : ℚ) < unit.size := by exact_mod_cast positive
  have units : magnitude = magnitude / unit.size * unit.size := (div_mul_cancel₀ _ size.ne').symm
  have scaled := abs_roundedUnits_sub_le (magnitude / unit.size)
  rw [Compact.places_inUnit, Compact.number, Compact.mantissa_inUnit nonneg]
  calc |roundedUnits (magnitude / unit.size) * unit.size - magnitude|
      = |roundedUnits (magnitude / unit.size) - magnitude / unit.size| * unit.size := by
        conv_lhs => rw [units, div_mul_cancel₀ _ size.ne']
        rw [← abs_of_pos size, ← abs_mul, abs_of_pos size, sub_mul, ← units]
    _ ≤ 1 / 10 ^ placesFor (roundedUnits (magnitude / unit.size)) / 2 * unit.size :=
        mul_le_mul_of_nonneg_right scaled size.le
    _ = _ := by ring

theorem of_eq_settle (nonneg : 0 ≤ magnitude) :
    Compact.of magnitude = Compact.settle magnitude CompactUnit.one CompactUnit.larger :=
  Compact.choose_eq_settle_of_ascend nonneg (by decide) Compact.ascend_larger

theorem number_ofMagnitude (nonneg : 0 ≤ magnitude) :
    (ofMagnitude magnitude).number = (Compact.of magnitude).number := by
  obtain ⟨chosen, -, same, -⟩ := Compact.exists_settle nonneg Compact.ascend_larger
  rw [ofMagnitude, of_eq_settle nonneg, same, number, mantissa_ofCompact_inUnit nonneg]
  rfl

theorem rounds_ofMagnitude (nonneg : 0 ≤ magnitude) : (ofMagnitude magnitude).Rounds magnitude := by
  obtain ⟨chosen, member, same, kept, reached⟩ :=
    Compact.exists_settle nonneg Compact.ascend_larger
  have positive : ∀ unit ∈ CompactUnit.one :: CompactUnit.larger, 0 < unit.size := by decide
  have listed : ∀ unit ∈ CompactUnit.one :: CompactUnit.larger, (unit.mark, unit.size) ∈
      [("", 1), ("K", 1000), ("M", 1000000), ("B", 1000000000)] := by decide
  have shown := mantissa_ofCompact_inUnit nonneg chosen
  rw [ofMagnitude, of_eq_settle nonneg, same]
  refine ⟨listed chosen member, ?_, ?_, ?_, ?_⟩
  · rw [shown]
    rfl
  · rw [shown]
    refine kept.imp_left fun last => ?_
    obtain rfl := Option.some.inj last
    rfl
  · rw [shown]
    refine reached.imp_left fun first => ?_
    subst first
    rfl
  · rw [number, shown]
    exact near_inUnit nonneg (positive chosen member)

theorem number_mono (nonneg : 0 ≤ magnitude) (le : magnitude ≤ magnitude') :
    (ofMagnitude magnitude).number ≤ (ofMagnitude magnitude').number := by
  have nonneg' := nonneg.trans le
  rw [number_ofMagnitude nonneg, number_ofMagnitude nonneg', of_eq_settle nonneg,
    of_eq_settle nonneg']
  exact Compact.number_settle_mono nonneg le Compact.ascend_larger

end ShortLabel

/-- **From the threshold on, the label of a value on an axis is a short label that rounds its
magnitude, and a larger magnitude never shows a smaller number.** -/
theorem ValueFormatter.axis_rounds (formatter : ValueFormatter) (value value' : ℚ)
    (reached : Quantity.ofFloat formatter.compactThreshold ≤ |value|) :
    (∃ text, formatter.axis value = formatter.unit.affix (decide (value < 0)) text ∧
      (ShortLabel.ofMagnitude |value|).Spells text) ∧
    (ShortLabel.ofMagnitude |value|).Rounds |value| ∧
    (|value| ≤ |value'| →
      (ShortLabel.ofMagnitude |value|).number ≤ (ShortLabel.ofMagnitude |value'|).number) := by
  have label : formatter.axis value =
      formatter.unit.affix (decide (value < Quantity.zero)) (Compact.of |value|).text := by
    have above : ¬ Quantity.abs value < Quantity.ofFloat formatter.compactThreshold :=
      not_lt.mpr reached
    exact congrArg (formatter.unit.affix _) (if_neg above)
  rw [Quantity.zero_rat] at label
  exact ⟨⟨_, label, ShortLabel.spells_text _⟩, ShortLabel.rounds_ofMagnitude (abs_nonneg value),
    ShortLabel.number_mono (abs_nonneg value)⟩

/-- Rounding carries 999950 into the millions. -/
theorem ValueFormatter.axis_rounds_of_carry :
    ({} : ValueFormatter).axis (999950 : ℚ) = "1.0M" ∧
      (ShortLabel.ofMagnitude |999950|).Rounds |999950| ∧
      (ShortLabel.ofMagnitude |999950|).number ≤ (ShortLabel.ofMagnitude |1049999|).number := by
  obtain ⟨-, rounds, mono⟩ := axis_rounds {} 999950 1049999 (by decide +kernel)
  exact ⟨by decide +kernel, rounds, mono (by decide +kernel)⟩

end ChartCompiler
