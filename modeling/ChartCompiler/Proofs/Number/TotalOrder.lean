import ChartCompiler.Proofs.Number.Rank

/-!
# The total order of doubles

Doubles are sorted by their bits.  Beside the sign, the bits of a double count the steps between
neighbouring doubles that lie between zero and its magnitude (`parts_of_unpack`), so the place of a
double in the total order is this count, with a sign (`floatRank_cases`).  Comparison agrees with it
(`lt_iff_lineHeight`): sorting puts doubles in ascending order unless one of them is undefined
(`le_of_totalLE`), and it tells doubles apart that compare the same only if they are the two zeros
(`lt_or_eq_of_totalLE`).
-/

set_option autoImplicit false

namespace ChartCompiler

open Float.Model.UnpackedFloat

/-! ## The bits of a double -/

/-- A mantissa and an exponent as a double has them: the mantissa has 53 digits, or fewer where the
exponent is the least one. -/
structure Canonical (mantissa : ℕ) (exponent : ℤ) : Prop where
  mantissa_lt : mantissa < 2 ^ 53
  least_le : -1074 ≤ exponent
  le_greatest : exponent ≤ 971
  leading : 2 ^ 52 ≤ mantissa ∨ exponent = -1074

theorem toNat_append_eq {width count : ℕ} (front : BitVec width) (back : BitVec count) :
    (front ++ back).toNat = front.toNat * 2 ^ count + back.toNat := by
  rw [BitVec.toNat_append, ← Nat.shiftLeft_add_eq_or_of_lt back.isLt, Nat.shiftLeft_eq]

theorem toNat_packComponents (sign : Sign) (field : BitVec 11) (fraction : BitVec 52) :
    (packComponents .binary64 sign field fraction).toNat =
      sign.toBitVec.toNat * 2 ^ 63 + field.toNat * 2 ^ 52 + fraction.toNat := by
  have whole : (packComponents .binary64 sign field fraction).toNat =
      (sign.toBitVec ++ field).toNat * 2 ^ 52 + fraction.toNat := toNat_append_eq _ _
  rw [whole, toNat_append_eq]
  ring

theorem toNat_ne_of_ne {width : ℕ} {first second : BitVec width} (differ : first ≠ second) :
    first.toNat ≠ second.toNat :=
  fun same => differ (BitVec.eq_of_toNat_eq same)

/-- The bits of a finite double, as a number.  One formula serves for both kinds of mantissas: a
leading digit that is left out of the bits is made up for by the field of the exponent. -/
theorem parts_of_unpack (bits : BitVec 64) {sign : Sign} {mantissa : ℕ} {exponent : ℤ}
    {positive : 0 < mantissa}
    (read : unpack .binary64 bits = .finite sign mantissa exponent positive) :
    Canonical mantissa exponent ∧
      (bits.toNat : ℤ) =
        sign.toBitVec.toNat * 2 ^ 63 + ((exponent + 1074) * 2 ^ 52 + mantissa) := by
  obtain ⟨sign, field, fraction, rfl⟩ : ∃ sign field fraction,
      packComponents .binary64 sign field fraction = bits :=
    ⟨_, _, _, @packComponents_unpackSign_unpackExponent_unpackMantissa .binary64 bits⟩
  have short : fraction.toNat < 2 ^ 52 := fraction.isLt
  have few : field.toNat < 2 ^ 11 := field.isLt
  have bias : Float.Model.Format.exponentBias .binary64 = 1023 := rfl
  rw [toNat_packComponents]
  simp only [unpack, unpackMantissa_packComponents, unpackExponent_packComponents,
    unpackSign_packComponents, Sign.ofBitVec_toBitVec, bias] at read
  split at read
  · split at read <;> cases read
  · next notAll =>
    have below : field.toNat ≠ 2047 := toNat_ne_of_ne notAll
    split at read
    · next noField =>
      have none : field.toNat = 0 := congrArg BitVec.toNat noField
      split at read
      · cases read
      · cases read
        rw [none]
        exact ⟨⟨by omega, by omega, by omega, by omega⟩, by omega⟩
    · next someField =>
      have some : field.toNat ≠ 0 := toNat_ne_of_ne someField
      have implicit : (1#1 ++ fraction).toNat = 2 ^ 52 + fraction.toNat :=
        (toNat_append_eq _ _).trans (by rw [BitVec.toNat_ofNat, Nat.one_mul])
      cases read
      rw [implicit]
      exact ⟨⟨by omega, by omega, by omega, by omega⟩, by omega⟩

/-- The parts of a finite double are those that a double can have. -/
theorem canonical_of_unpack {value : Float} {sign : Sign} {mantissa : ℕ} {exponent : ℤ}
    {positive : 0 < mantissa}
    (read : value.toModel.unpack = .finite sign mantissa exponent positive) :
    Canonical mantissa exponent :=
  (parts_of_unpack value.toBits.toBitVec read).1

/-! ## Heights -/

/-- How many steps between neighbouring doubles lie between zero and a double that is taken apart;
less than zero for a negative one.  An undefined double is above all others. -/
def unpackedHeight : Float.Model.UnpackedFloat → ℤ
  | .notANumber => 2047 * 2 ^ 52 + 2 ^ 51
  | .infinity sign => sign.apply (2047 * 2 ^ 52)
  | .zero _ => 0
  | .finite sign mantissa exponent _ => sign.apply ((exponent + 1074) * 2 ^ 52 + mantissa)

/-- The height of a double. -/
def lineHeight (value : Float) : ℤ :=
  unpackedHeight value.toModel.unpack

theorem floatRank_eq (value : Float) :
    floatRank value = if value.toBits.toNat < 2 ^ 63 then value.toBits.toNat + 2 ^ 63
      else 2 ^ 64 - 1 - value.toBits.toNat :=
  rfl

theorem floatRank_injective : Function.Injective floatRank := by
  intro left right same
  have bits : left.toBits.toNat = right.toBits.toNat := by
    have low := left.toBits.toNat_lt
    have low' := right.toBits.toNat_lt
    rw [floatRank_eq, floatRank_eq] at same
    split at same <;> split at same <;> omega
  exact Float.toBits_inj.mp (UInt64.toNat_inj.mp bits)

/-- The place of a double in the total order is its height.  Doubles with a negative sign are put
one place lower, which keeps the two zeros apart. -/
theorem floatRank_cases (value : Float) :
    (0 ≤ lineHeight value ∧ (floatRank value : ℤ) = 2 ^ 63 + lineHeight value) ∨
      (lineHeight value ≤ 0 ∧ (floatRank value : ℤ) = 2 ^ 63 - 1 + lineHeight value) := by
  have packed : value.toBits.toBitVec = pack .binary64 value.toModel.unpack :=
    (pack_unpack_of_valid value.toModel.valid).symm
  have bits : value.toBits.toNat = (pack .binary64 value.toModel.unpack).toNat :=
    congrArg BitVec.toNat packed
  rw [floatRank_eq, lineHeight]
  cases read : value.toModel.unpack with
  | notANumber =>
      rw [bits, read]
      decide
  | infinity sign =>
      rw [bits, read]
      cases sign <;> decide
  | zero sign =>
      rw [bits, read]
      cases sign <;> decide
  | finite sign mantissa exponent positive =>
      obtain ⟨⟨short, least, greatest, -⟩, count⟩ :=
        parts_of_unpack value.toBits.toBitVec read
      have count : (value.toBits.toNat : ℤ) = _ := count
      cases sign with
      | positive =>
          have bit : Sign.positive.toBitVec.toNat = 0 := rfl
          have above : unpackedHeight (.finite .positive mantissa exponent positive) =
              (exponent + 1074) * 2 ^ 52 + mantissa := rfl
          rw [bit] at count
          left
          rw [above]
          split <;> omega
      | negative =>
          have bit : Sign.negative.toBitVec.toNat = 1 := rfl
          have below : unpackedHeight (.finite .negative mantissa exponent positive) =
              -((exponent + 1074) * 2 ^ 52 + mantissa) := rfl
          rw [bit] at count
          right
          rw [below]
          split <;> omega

/-- The height of the double at a place on the line. -/
def IsHeight (sign exponent mantissa height : ℤ) : Prop :=
  (sign = -2 ∧ exponent = 0 ∧ mantissa = 0 ∧ height = -(2047 * 2 ^ 52)) ∨
    (sign = -1 ∧ ∃ magnitude : ℕ, mantissa = -magnitude ∧ Canonical magnitude (-exponent) ∧
      height = -((-exponent + 1074) * 2 ^ 52 + magnitude) ∧ 0 < magnitude) ∨
    (sign = 0 ∧ exponent = 0 ∧ mantissa = 0 ∧ height = 0) ∨
    (sign = 1 ∧ ∃ magnitude : ℕ, mantissa = magnitude ∧ Canonical magnitude exponent ∧
      height = (exponent + 1074) * 2 ^ 52 + magnitude ∧ 0 < magnitude) ∨
    (sign = 2 ∧ exponent = 0 ∧ mantissa = 0 ∧ height = 2047 * 2 ^ 52)

theorem exists_isHeight {value : Float} {place : Line} (here : lineRank value = place) :
    ∃ sign exponent mantissa, place = placeOnLine sign exponent mantissa ∧
      IsHeight sign exponent mantissa (lineHeight value) := by
  rw [lineRank] at here
  rw [lineHeight]
  cases read : value.toModel.unpack with
  | notANumber =>
      rw [read] at here
      cases here
  | zero sign =>
      rw [read] at here
      obtain rfl := WithBot.coe_injective here
      exact ⟨0, 0, 0, rfl, .inr (.inr (.inl ⟨rfl, rfl, rfl, rfl⟩))⟩
  | infinity sign =>
      rw [read] at here
      cases sign with
      | negative =>
          obtain rfl := WithBot.coe_injective here
          exact ⟨-2, 0, 0, rfl, .inl ⟨rfl, rfl, rfl, rfl⟩⟩
      | positive =>
          obtain rfl := WithBot.coe_injective here
          exact ⟨2, 0, 0, rfl, .inr (.inr (.inr (.inr ⟨rfl, rfl, rfl, rfl⟩)))⟩
  | finite sign mantissa exponent positive =>
      have canonical := canonical_of_unpack read
      rw [read] at here
      cases sign with
      | negative =>
          obtain rfl := WithBot.coe_injective here
          refine ⟨-1, -exponent, -mantissa, rfl, .inr (.inl ⟨rfl, mantissa, rfl, ?_, ?_, positive⟩)⟩
          · rwa [neg_neg]
          · rw [neg_neg]
            rfl
      | positive =>
          obtain rfl := WithBot.coe_injective here
          exact ⟨1, exponent, mantissa, rfl,
            .inr (.inr (.inr (.inl ⟨rfl, mantissa, rfl, canonical, rfl, positive⟩)))⟩

/-- Places are in the order of their heights.  A greater exponent outweighs any mantissa, because
only the least exponent has mantissas without the leading digit. -/
theorem height_lt_height_iff {sign sign' exponent exponent' mantissa mantissa' height height' : ℤ}
    (first : IsHeight sign exponent mantissa height)
    (second : IsHeight sign' exponent' mantissa' height') :
    height < height' ↔
      placeOnLine sign exponent mantissa < placeOnLine sign' exponent' mantissa' := by
  rw [placeOnLine, placeOnLine, Prod.Lex.toLex_lt_toLex, Prod.Lex.toLex_lt_toLex]
  rcases first with ⟨rfl, rfl, rfl, rfl⟩ | ⟨rfl, magnitude, rfl, ⟨_, _, _, _⟩, rfl, _⟩ |
      ⟨rfl, rfl, rfl, rfl⟩ | ⟨rfl, magnitude, rfl, ⟨_, _, _, _⟩, rfl, _⟩ | ⟨rfl, rfl, rfl, rfl⟩ <;>
    rcases second with ⟨rfl, rfl, rfl, rfl⟩ | ⟨rfl, magnitude', rfl, ⟨_, _, _, _⟩, rfl, _⟩ |
      ⟨rfl, rfl, rfl, rfl⟩ | ⟨rfl, magnitude', rfl, ⟨_, _, _, _⟩, rfl, _⟩ | ⟨rfl, rfl, rfl, rfl⟩ <;>
    omega

/-- **Doubles are compared as their heights are.** -/
theorem lt_iff_lineHeight {left right : Float} (defined : lineRank left ≠ ⊥)
    (defined' : lineRank right ≠ ⊥) : left < right ↔ lineHeight left < lineHeight right := by
  obtain ⟨place, here⟩ := WithBot.ne_bot_iff_exists.mp defined
  obtain ⟨place', there⟩ := WithBot.ne_bot_iff_exists.mp defined'
  obtain ⟨_, _, _, rfl, first⟩ := exists_isHeight here.symm
  obtain ⟨_, _, _, rfl, second⟩ := exists_isHeight there.symm
  rw [ranked_lineRank.lt_iff, height_lt_height_iff first second, ← here, ← there,
    WithBot.coe_lt_coe, and_iff_right WithBot.coe_ne_bot]

/-! ## Sorted doubles -/

section Sorted

variable {left right : Float}

/-- What the total order puts first is not greater, if both doubles are defined. -/
theorem le_of_totalLE (defined : left ≤ left) (defined' : right ≤ right)
    (before : Quantity.totalLE left right = true) : left ≤ right := by
  have known := ((ranked_lineRank.le_iff left left).mp defined).1
  have known' := ((ranked_lineRank.le_iff right right).mp defined').1
  have ranks : floatRank left ≤ floatRank right := of_decide_eq_true before
  refine (ranked_lineRank.le_iff left right).mpr ⟨known, not_lt.mp fun less => ?_⟩
  have above := (lt_iff_lineHeight known' known).mp
    ((ranked_lineRank.lt_iff right left).mpr ⟨known', less⟩)
  rcases floatRank_cases left with ⟨_, _⟩ | ⟨_, _⟩ <;>
    rcases floatRank_cases right with ⟨_, _⟩ | ⟨_, _⟩ <;> omega

theorem lineHeight_pos (positive : Quantity.zero < left) :
    lineRank left ≠ ⊥ ∧ 0 < lineHeight left := by
  obtain ⟨known, less⟩ := (ranked_lineRank.lt_iff _ _).mp positive
  exact ⟨less.ne_bot, (lt_iff_lineHeight known less.ne_bot).mp positive⟩

/-- Of two different positive doubles, the total order puts the smaller one first. -/
theorem lt_or_eq_of_totalLE (positive : Quantity.zero < left) (positive' : Quantity.zero < right)
    (before : Quantity.totalLE left right = true) : left < right ∨ left = right := by
  obtain ⟨known, above⟩ := lineHeight_pos positive
  obtain ⟨known', above'⟩ := lineHeight_pos positive'
  have ranks : floatRank left ≤ floatRank right := of_decide_eq_true before
  rcases ranks.lt_or_eq with less | same
  · left
    rw [lt_iff_lineHeight known known']
    rcases floatRank_cases left with ⟨_, _⟩ | ⟨_, _⟩ <;>
      rcases floatRank_cases right with ⟨_, _⟩ | ⟨_, _⟩ <;> omega
  · exact .inr (floatRank_injective same)

end Sorted

end ChartCompiler
