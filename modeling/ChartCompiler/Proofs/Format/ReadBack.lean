import ChartCompiler.Proofs.Format.GroupedText
import ChartCompiler.Proofs.Number.NearestDouble
import ChartCompiler.Proofs.Text.Parts
import ChartCompiler.Record.Basic

/-!
# Reading grouped numbers back

A grouped number is a numeral whose whole part stands in groups of three digits, with at most three
digits in front, and whose fraction does not end in a zero (`GroupedNumeral`).  A cell with such a
text is read without the commas, which leaves the same digits, and the zeros that the fraction lost
do not change the number that they stand for.  So the double in the cell is the one that the number
rounded to its decimals is read as (`groupedText_reads_back`).

That double is finite although rounding may go up: from `2 ^ 52` on a double is whole and nothing is
rounded, and what is less stays far within the range of doubles (`exists_ge_of_nearest`).
-/

set_option autoImplicit false

namespace ChartCompiler

/-! ## Rounding stays within the doubles -/

/-- What a double is rounded to does not exceed every double. -/
theorem exists_ge_of_nearest {value : Float} (finite : value.isFinite = true) {places units : ℕ}
    (nearest : Nearest (|valueOf value| * 10 ^ places) units) :
    ∃ other : Float, other.isFinite = true ∧
      (units : ℚ) * 10 ^ (-(places : ℤ)) ≤ |valueOf other| := by
  have scale : (0 : ℚ) < 10 ^ places := by positivity
  have bounded (bound : ℚ) : (units : ℚ) * 10 ^ (-(places : ℤ)) ≤ bound ↔
      units ≤ bound * 10 ^ places := by
    rw [zpow_neg, zpow_natCast, ← div_eq_mul_inv, div_le_iff₀ scale]
  simp only [bounded]
  by_cases great : 2 ^ 52 ≤ |valueOf value|
  · obtain ⟨whole, value_eq⟩ := exists_whole finite great
    have magnitude : |valueOf value| * 10 ^ places = (whole.natAbs * 10 ^ places : ℕ) := by
      rw [value_eq, Nat.cast_mul, Nat.cast_pow, Nat.cast_ofNat, Nat.cast_natAbs, Int.cast_abs]
    refine ⟨value, finite, ?_⟩
    rw [magnitude] at nearest ⊢
    rw [nearest.eq_of_whole]
  · obtain ⟨otherFinite, otherValue⟩ := ofNat_exact (2 ^ 53 - 1) (by norm_num)
    have high := (abs_le.mp nearest.near).2
    have one_le : (1 : ℚ) ≤ 10 ^ places := one_le_pow₀ (by norm_num)
    refine ⟨_, otherFinite, ?_⟩
    rw [otherValue, Nat.abs_cast]
    calc (units : ℚ)
        ≤ |valueOf value| * 10 ^ places + 1 * 10 ^ places := by linarith
      _ = (|valueOf value| + 1) * 10 ^ places := by ring
      _ ≤ ((2 ^ 53 - 1 : ℕ) : ℚ) * 10 ^ places :=
          mul_le_mul_of_nonneg_right (by push_cast; linarith) scale.le

/-! ## Groups of three -/

/-- Digits in groups of three, counted from the right. -/
structure Grouping where
  /-- The digits in front of the first comma. -/
  first : List Char
  /-- The groups that follow a comma. -/
  groups : List (List Char)
  /-- At least one digit and at most three stand in front. -/
  length_first : 1 ≤ first.length ∧ first.length ≤ 3
  /-- All other groups have three digits. -/
  length_group : ∀ group ∈ groups, group.length = 3

namespace Grouping

variable (grouping : Grouping)

/-- The digits without commas. -/
def digits : List Char :=
  grouping.first ++ grouping.groups.flatten

/-- The digits with a comma in front of each group. -/
def text : List Char :=
  grouping.first ++ grouping.groups.flatMap fun group => ',' :: group

theorem digits_ne_nil : grouping.digits ≠ [] :=
  List.append_ne_nil_of_left_ne_nil (List.ne_nil_of_length_pos grouping.length_first.1) _

theorem length_digits_mod : grouping.digits.length % 3 = grouping.first.length % 3 := by
  have threes : grouping.groups.flatten.length = 3 * grouping.groups.length := by
    rw [List.length_flatten, List.map_congr_left grouping.length_group, List.map_const',
      List.sum_replicate, smul_eq_mul, Nat.mul_comm]
  rw [digits, List.length_append, threes, Nat.add_mul_mod_self_left]

/-- Digits and commas are told apart. -/
theorem filter_text (numeric : ∀ digit ∈ grouping.digits, digit.isDigit = true) :
    grouping.text.filter (· ≠ ',') = grouping.digits := by
  have kept {digits : List Char} (numeric : ∀ digit ∈ digits, digit.isDigit = true) :
      digits.filter (· ≠ ',') = digits :=
    List.filter_eq_self.mpr fun digit member =>
      decide_eq_true (ne_of_isDigit (numeric digit member) rfl)
  obtain ⟨front, rest⟩ := List.forall_mem_append.mp numeric
  rw [text, digits, List.filter_append, kept front, List.filter_flatMap, List.flatten_eq_flatMap]
  congr 1
  refine List.flatMap_congr fun group member => ?_
  exact kept fun digit within => rest digit (List.mem_flatten_of_mem member within)

end Grouping

/-- **A comma stands where a number of threes is left, so the digits are grouped by threes from the
right.** -/
theorem exists_grouping {digits : List Char} (written : digits ≠ []) :
    ∃ grouping : Grouping, grouping.digits = digits ∧ grouping.text = groupDigits digits := by
  fun_induction groupDigits digits with
  | case1 => exact absurd rfl written
  | case2 digit rest comma ih =>
      -- Before a comma the first group is complete, and the digit starts another one.
      obtain ⟨grouping, rfl, grouped⟩ := ih (List.ne_nil_of_length_pos (Nat.pos_of_ne_zero comma.1))
      have remainder := grouping.length_digits_mod
      have length := grouping.length_first
      have three : grouping.first.length = 3 := by omega
      refine ⟨⟨[digit], grouping.first :: grouping.groups, by simp,
        List.forall_mem_cons.mpr ⟨three, grouping.length_group⟩⟩, rfl, ?_⟩
      rw [← grouped]
      rfl
  | case3 digit rest noComma ih =>
      by_cases last : rest = []
      · subst last
        exact ⟨⟨[digit], [], by simp, by simp⟩, rfl, rfl⟩
      · -- Otherwise the first group has room for the digit.
        obtain ⟨grouping, rfl, grouped⟩ := ih last
        have remainder := grouping.length_digits_mod
        have length := grouping.length_first
        have some := List.length_pos_of_ne_nil last
        have room : (digit :: grouping.first).length ≤ 3 := by
          rw [List.length_cons]
          omega
        refine ⟨⟨digit :: grouping.first, grouping.groups, ⟨Nat.succ_pos _, room⟩,
          grouping.length_group⟩, rfl, ?_⟩
        rw [← grouped]
        rfl

/-! ## Numerals with groups -/

/-- A numeral whose whole part stands in groups of three digits and whose fraction ends in no
zero. -/
structure GroupedNumeral extends Grouping where
  /-- Whether it starts with a minus. -/
  negative : Bool
  /-- The digits behind the point. -/
  fraction : List Char
  /-- Nothing but digits stands in the groups and behind the point. -/
  numeric : ∀ digit ∈ toGrouping.digits ++ fraction, digit.isDigit = true
  /-- The last digit behind the point is not zero. -/
  last_ne_zero : fraction.getLast? ≠ some '0'

namespace GroupedNumeral

variable (numeral : GroupedNumeral)

/-- The minus, if there is one. -/
def sign : List Char :=
  if numeral.negative then ['-'] else []

/-- The numeral with its commas. -/
def grouped : List Char :=
  numeral.sign ++ (numeral.text ++ pointed numeral.fraction)

/-- The digits without sign and commas, and with some more zeros at their end. -/
def unsigned (zeros : ℕ) : List Char :=
  numeral.digits ++ pointed (numeral.fraction ++ List.replicate zeros '0')

/-- The numeral without commas, and with some more zeros at its end. -/
def plain (zeros : ℕ) : List Char :=
  numeral.sign ++ numeral.unsigned zeros

/-! ### Deleting the commas -/

theorem filter_grouped : numeral.grouped.filter (· ≠ ',') = numeral.plain 0 := by
  obtain ⟨whole, fraction⟩ := List.forall_mem_append.mp numeral.numeric
  have sign : numeral.sign.filter (· ≠ ',') = numeral.sign := by
    rw [GroupedNumeral.sign]
    cases numeral.negative <;> rfl
  have point : (pointed numeral.fraction).filter (· ≠ ',') = pointed numeral.fraction := by
    refine List.filter_eq_self.mpr fun mark member => decide_eq_true ?_
    rintro rfl
    rw [mem_pointed _ (by decide)] at member
    cases fraction _ member
  rw [grouped, plain, unsigned, List.filter_append, List.filter_append, sign, point,
    numeral.filter_text whole, List.replicate_zero, List.append_nil]

theorem isBlank_of_mem_grouped {mark : Char} (member : mark ∈ numeral.grouped) :
    Text.isBlank mark = false := by
  by_cases comma : mark = ','
  · rw [comma]
    decide
  by_cases point : mark = '.'
  · rw [point]
    decide
  · have kept : mark ∈ numeral.plain 0 := by
      rw [← numeral.filter_grouped]
      exact List.mem_filter.mpr ⟨member, decide_eq_true comma⟩
    rw [plain, unsigned, List.replicate_zero, List.append_nil, List.mem_append, List.mem_append,
      mem_pointed _ point, ← List.mem_append] at kept
    rcases kept with minus | digit
    · rw [sign] at minus
      split at minus
      · rw [List.mem_singleton.mp minus]
        decide
      · cases minus
    · exact isBlank_of_isDigit (numeral.numeric mark digit)

/-! ### Reading -/

theorem read_unsigned (negative : Bool) (zeros : ℕ) :
    Numeral.read ((if negative then ['-'] else []) ++ numeral.unsigned zeros) =
      some ⟨negative,
        digitsValue (numeral.digits ++ (numeral.fraction ++ List.replicate zeros '0')),
        -((numeral.fraction ++ List.replicate zeros '0').length : ℤ)⟩ := by
  obtain ⟨whole, fraction⟩ := List.forall_mem_append.mp numeral.numeric
  refine read_signed negative numeral.digits_ne_nil
    (fun digit member => (isDigit_eq digit).trans (whole digit member)) fun digit member => ?_
  rw [isDigit_eq]
  rcases List.mem_append.mp member with written | zero
  · exact fraction digit written
  · rw [List.eq_of_mem_replicate zero]
    rfl

/-- A sign in front of a numeral is read as the sign of the same number. -/
theorem read_plain {zeros units : ℕ} {exponent : ℤ}
    (read : Numeral.read (numeral.unsigned zeros) = some ⟨false, units, exponent⟩) :
    Numeral.read (numeral.plain zeros) = some ⟨numeral.negative, units, exponent⟩ := by
  have same := (numeral.read_unsigned false zeros).symm.trans read
  rw [Option.some.injEq, Numeral.mk.injEq] at same
  obtain ⟨-, rfl, rfl⟩ := same
  exact numeral.read_unsigned numeral.negative zeros

/-- **Zeros at the end do not change the double that is read.** -/
theorem readFloat_plain (zeros : ℕ) :
    readFloat (numeral.plain zeros) = readFloat (numeral.plain 0) := by
  have digits : digitsValue (numeral.digits ++ (numeral.fraction ++ List.replicate zeros '0')) =
      digitsValue (numeral.digits ++ numeral.fraction) * 10 ^ zeros := by
    rw [← List.append_assoc, digitsValue_append, digitsValue_replicate_zero, List.length_replicate,
      Nat.add_zero]
    rfl
  have power : (10 : ℚ) ^ zeros * 10 ^ (-(numeral.fraction.length + zeros : ℕ) : ℤ) =
      10 ^ (-(numeral.fraction.length : ℤ)) := by
    rw [← zpow_natCast, ← zpow_add₀ (by norm_num)]
    congr 1
    omega
  have read (zeros : ℕ) := numeral.read_unsigned numeral.negative zeros
  rw [readFloat, readFloat, plain, plain, sign, read, read]
  refine congrArg some (Numeral.toFloat_congr rfl ?_)
  simp only [digits, List.length_append, List.length_replicate, List.replicate_zero,
    List.append_nil, Nat.cast_mul, Nat.cast_pow, Nat.cast_ofNat]
  rw [mul_assoc, power]

theorem number_grouped {number : Float} (read : readFloat (numeral.plain 0) = some number)
    (finite : number.isFinite = true) :
    Cell.number (.string (String.ofList numeral.grouped)) = some number := by
  have trimmed : Text.trimBlanks numeral.grouped = numeral.grouped :=
    Text.trimBlanks_eq_self
      (fun _ starts => numeral.isBlank_of_mem_grouped (List.mem_of_head? starts))
      (fun _ ends => numeral.isBlank_of_mem_grouped (List.mem_of_getLast? ends))
  rw [Cell.number, Cell.textNumber, String.toList_ofList, trimmed, filter_grouped, read]
  exact if_pos finite

end GroupedNumeral

/-! ## Grouped quantities -/

/-- The digits of a whole number of units of the last place, grouped and without the zeros at their
end. -/
theorem exists_groupedNumeral (negative : Bool) (places units : ℕ) :
    ∃ (numeral : GroupedNumeral) (zeros : ℕ), numeral.negative = negative ∧
      (placesText places units).toList = numeral.unsigned zeros ∧
      numeral.grouped = (if negative then ['-'] else []) ++
        (groupDigits (digitsOf (units / tenTo places)) ++
          pointed (dropTrailingZeros (placeDigits places units))) := by
  obtain ⟨grouping, digits, text⟩ :=
    exists_grouping (List.ne_nil_of_length_pos (length_digitsOf_pos (units / tenTo places)))
  obtain ⟨zeros, fraction⟩ := exists_dropTrailingZeros_append (placeDigits places units)
  refine ⟨{
    toGrouping := grouping
    negative := negative
    fraction := dropTrailingZeros (placeDigits places units)
    numeric := ?_
    last_ne_zero := getLast?_dropTrailingZeros _ }, zeros, rfl, ?_, ?_⟩
  · rw [digits]
    intro digit member
    rcases List.mem_append.mp member with whole | kept
    · exact isDigit_of_mem_digitsOf whole
    · exact isDigit_of_mem_placeDigits (mem_of_mem_dropTrailingZeros kept)
  · exact (toList_placesText places units).trans
      (congrArg₂ (fun whole fraction => whole ++ pointed fraction) digits.symm fraction.symm)
  · rw [GroupedNumeral.grouped, text]
    rfl

/-- **A grouped number reads back as the number it was rounded to.**  It is a numeral in groups of
three digits, with a minus if it is negative and not rounded to zero, and without the zeros at the
end of the fraction.  Without the commas these are the digits of the nearest number with the given
decimals.  The double that a cell with the grouped number has is the one that the rounded number is
read as, with its zeros or without. -/
theorem groupedText_reads_back {value : Float} (finite : value.isFinite = true) (places : ℕ) :
    ∃ (numeral : GroupedNumeral) (zeros : ℕ) (number : Float),
      Nearest (|valueOf value| * 10 ^ places) (Quantity.nearestUnits places value) ∧
      Numeral.read (numeral.unsigned zeros) =
        some ⟨false, Quantity.nearestUnits places value, -(places : ℤ)⟩ ∧
      (Quantity.fixedText places value).toList = numeral.unsigned zeros ∧
      (numeral.negative = true ↔ value < 0 ∧ Quantity.nearestUnits places value ≠ 0) ∧
      (groupedText value places).toList = numeral.grouped ∧
      (groupedText value places).toList.filter (· ≠ ',') = numeral.plain 0 ∧
      Cell.number (.string (groupedText value places)) = some number ∧
      readFloat (numeral.plain 0) = some number ∧
      readFloat (numeral.plain zeros) = some number := by
  have nearest := nearest_nearestUnits finite places
  obtain ⟨other, otherFinite, bounded⟩ := exists_ge_of_nearest finite nearest
  obtain ⟨numeral, zeros, negative, written, grouped⟩ :=
    exists_groupedNumeral (decide (value < Quantity.zero ∧ Quantity.nearestUnits places value ≠ 0))
      places (Quantity.nearestUnits places value)
  have text : (groupedText value places).toList = numeral.grouped := by
    rw [grouped, toList_groupedText finite, List.append_assoc]
    simp only [decide_eq_true_eq]
  have read : Numeral.read (numeral.unsigned zeros) =
      some ⟨false, Quantity.nearestUnits places value, -(places : ℤ)⟩ := by
    rw [← written]
    exact read_placesText places _
  have padded : readFloat (numeral.plain zeros) = some (Numeral.toFloat
      ⟨numeral.negative, Quantity.nearestUnits places value, -(places : ℤ)⟩) :=
    congrArg (Option.map Numeral.toFloat) (numeral.read_plain read)
  have plain := (numeral.readFloat_plain zeros).symm.trans padded
  have cell := numeral.number_grouped plain (Numeral.isFinite_toFloat otherFinite bounded)
  rw [← text, String.ofList_toList] at cell
  refine ⟨numeral, zeros, _, nearest, read, written, ?_, text, ?_, cell, plain, padded⟩
  · rw [negative, decide_eq_true_iff]
    exact Iff.rfl
  · rw [text, numeral.filter_grouped]

/-- Rounding to two decimals carries 999.999 to a thousand. -/
theorem groupedText_reads_back_of_carry :
    (999.999 : Float).isFinite = true ∧ groupedText (999.999 : Float) 2 = "1,000" ∧
      Cell.number (.string (groupedText (999.999 : Float) 2)) = some 1000 := by
  have finite : (999.999 : Float).isFinite = true := by decide +kernel
  have text : groupedText (999.999 : Float) 2 = "1,000" := by decide +kernel
  obtain ⟨numeral, zeros, number, -, -, -, -, -, kept, cell, plain, -⟩ :=
    groupedText_reads_back finite 2
  have read : readFloat (numeral.plain 0) = some 1000 := by
    rw [← kept, text]
    decide +kernel
  rw [plain] at read
  exact ⟨finite, text, cell.trans read⟩

end ChartCompiler
