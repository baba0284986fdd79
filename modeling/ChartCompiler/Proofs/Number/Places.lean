import ChartCompiler.Proofs.Number.Digits
import Mathlib.Data.List.TakeWhile

/-!
# Numerals with fixed places

A whole number of units of the last of some decimal places is written as the quotient by a power of
ten, and behind the point as the digits of the remainder (`split_places`).  Reading such a numeral
gives the units and the places back (`read_placesText`), so what a label says as a number is found
in the label itself.
-/

set_option autoImplicit false

namespace ChartCompiler

/-! ## The last digits -/

/-- The last `places` decimal digits of a number, with leading zeros. -/
def placeDigits : (places number : Nat) → List Char
  | 0, _ => []
  | places + 1, number => placeDigits places (number / 10) ++ [(number % 10).digitChar]

@[simp] theorem length_placeDigits (places number : Nat) :
    (placeDigits places number).length = places := by
  induction places generalizing number with
  | zero => rfl
  | succ places ih => rw [placeDigits, List.length_append, ih, List.length_singleton]

theorem isDigit_digitChar (number : Nat) : (number % 10).digitChar.isDigit = true :=
  Nat.isDigit_digitChar.trans (decide_eq_true (Nat.mod_lt _ (by decide)))

theorem isDigit_of_mem_placeDigits {places number : Nat} {digit : Char}
    (member : digit ∈ placeDigits places number) : digit.isDigit = true := by
  induction places generalizing number with
  | zero => cases member
  | succ places ih =>
      rcases List.mem_append.mp member with earlier | last
      · exact ih earlier
      · rw [List.mem_singleton.mp last]
        exact isDigit_digitChar number

theorem digitsValue_digitsOf (number : Nat) : digitsValue (digitsOf number) = number := by
  rw [digitsValue_eq]
  exact Nat.ofDigitChars_toDigits (by decide) (by decide)

theorem digitsOf_of_lt {number : Nat} (single : number < 10) :
    digitsOf number = [number.digitChar] :=
  Nat.toDigits_of_lt_base single

theorem digitsOf_of_le {number : Nat} (several : 10 ≤ number) :
    digitsOf number = digitsOf (number / 10) ++ [(number % 10).digitChar] :=
  Nat.toDigits_of_base_le (by decide) several

theorem length_digitsOf_pos (number : Nat) : 0 < (digitsOf number).length :=
  Nat.length_toDigits_pos

/-- A number is written with a first digit. -/
theorem head?_digitsOf (number : Nat) :
    ∃ first, (digitsOf number).head? = some first ∧ first.isDigit = true := by
  cases written : digitsOf number with
  | nil => exact absurd written (List.ne_nil_of_length_pos (length_digitsOf_pos number))
  | cons first rest =>
      exact ⟨first, rfl, isDigit_of_mem_digitsOf (written ▸ List.mem_cons_self)⟩

theorem div_tenTo_succ (number places : Nat) :
    number / tenTo (places + 1) = number / 10 / tenTo places := by
  rw [Nat.div_div_eq_div_mul, Nat.mul_comm]
  rfl

/-- A number that is given leading zeros, so that a digit stands in front of the last `places` ones,
consists of the digits of its quotient and those last digits. -/
theorem replicate_append_digitsOf (places number : Nat) :
    List.replicate (places + 1 - (digitsOf number).length) '0' ++ digitsOf number =
      digitsOf (number / tenTo places) ++ placeDigits places number := by
  induction places generalizing number with
  | zero =>
      have some := length_digitsOf_pos number
      have whole : number / tenTo 0 = number := Nat.div_one number
      rw [Nat.sub_eq_zero_of_le (by omega), placeDigits, List.append_nil, whole]
      rfl
  | succ places ih =>
      rw [div_tenTo_succ, placeDigits, ← List.append_assoc, ← ih (number / 10)]
      rcases Nat.lt_or_ge number 10 with single | several
      · -- A single digit is the last one, and what stands in front of it is written as zero.
        rw [Nat.div_eq_of_lt single, Nat.mod_eq_of_lt single, digitsOf_of_lt single,
          digitsOf_of_lt (by decide : 0 < 10), List.length_singleton, List.length_singleton,
          Nat.add_sub_cancel, Nat.add_sub_cancel, List.replicate_succ']
        rfl
      · rw [digitsOf_of_le several, List.length_append, List.length_singleton,
          Nat.add_sub_add_right, List.append_assoc]

/-- The digits before and after the point of a number with fixed places. -/
theorem split_places (places units : Nat) :
    (Decimal.mk units (-(places : Int))).split =
      (digitsOf (units / tenTo places), placeDigits places units) := by
  simp only [Decimal.split]
  split
  · next whole =>
      obtain rfl : places = 0 := by omega
      simp [placeDigits]
  · have magnitude : (-(-(places : Int))).toNat = places := by omega
    rw [magnitude, replicate_append_digitsOf, List.length_append, length_placeDigits,
      Nat.add_sub_cancel, List.take_left, List.drop_left]

theorem digitsValue_placeDigits (places number : Nat) :
    digitsValue (placeDigits places number) = number % tenTo places := by
  induction places generalizing number with
  | zero => exact (Nat.mod_one number).symm
  | succ places ih =>
      have last : (number % 10).digitChar.toNat - 48 = number % 10 :=
        Nat.toNat_digitChar_sub_48_of_lt_ten (Nat.mod_lt _ (by decide))
      have power : tenTo (places + 1) = 10 * tenTo places := Nat.mul_comm _ _
      rw [placeDigits, digitsValue_append_singleton, ih, last, power, Nat.mod_mul]
      omega

/-- The digits before and after the point together stand for the whole number of units. -/
theorem digitsValue_split (places units : Nat) :
    digitsValue (digitsOf (units / tenTo places) ++ placeDigits places units) = units := by
  rw [digitsValue_append, digitsValue_digitsOf, digitsValue_placeDigits, length_placeDigits,
    Nat.mul_comm]
  exact Nat.div_add_mod units (tenTo places)

/-! ## Reading back -/

/-- What follows the whole part of a numeral: nothing, or a point and the fraction. -/
def pointed (fraction : List Char) : List Char :=
  if fraction.isEmpty then [] else '.' :: fraction

theorem toList_placesText (places units : Nat) :
    (placesText places units).toList =
      digitsOf (units / tenTo places) ++ pointed (placeDigits places units) := by
  rw [placesText, split_places]
  cases placeDigits places units with
  | nil => simp [pointed]
  | cons digit rest => simp [pointed]

theorem placesText_eq (places units : Nat) : placesText places units =
    toString (units / tenTo places) ++
      (if places = 0 then "" else "." ++ String.ofList (placeDigits places units)) := by
  have whole : (toString (units / tenTo places)).toList = digitsOf (units / tenTo places) :=
    toList_naturalText _
  have length := length_placeDigits places units
  rw [← String.toList_inj, toList_placesText, String.toList_append, whole]
  refine congrArg _ ?_
  cases decimals : placeDigits places units with
  | nil =>
      rw [decimals, List.length_nil] at length
      rw [if_pos length.symm]
      rfl
  | cons digit rest =>
      rw [decimals, List.length_cons] at length
      rw [if_neg (length ▸ Nat.succ_ne_zero _)]
      simp [pointed]

/-- A text that starts with a digit has no sign. -/
theorem takeSign_of_isDigit {first : Char} {rest : List Char} (digit : isDigit first = true) :
    takeSign (first :: rest) = (false, first :: rest) := by
  unfold takeSign
  split
  · next minus => cases minus; cases digit
  · next plus => cases plus; cases digit
  · rfl

theorem takeSign_append (negative : Bool) {first : Char} {rest : List Char}
    (digit : isDigit first = true) :
    takeSign ((if negative then ['-'] else []) ++ first :: rest) = (negative, first :: rest) := by
  cases negative with
  | false => exact takeSign_of_isDigit digit
  | true => rfl

/-- A numeral without a power of ten is read as its sign and its digits. -/
theorem read_signed (negative : Bool) {whole fraction : List Char} (written : whole ≠ [])
    (wholeDigits : ∀ digit ∈ whole, isDigit digit = true)
    (fractionDigits : ∀ digit ∈ fraction, isDigit digit = true) :
    Numeral.read ((if negative then ['-'] else []) ++ (whole ++ pointed fraction)) =
      some ⟨negative, digitsValue (whole ++ fraction), -(fraction.length : Int)⟩ := by
  have signed : takeSign ((if negative then ['-'] else []) ++ (whole ++ pointed fraction)) =
      (negative, whole ++ pointed fraction) := by
    cases whole with
    | nil => exact absurd rfl written
    | cons first rest => exact takeSign_append negative (wholeDigits first List.mem_cons_self)
  rw [Numeral.read, signed]
  simp only [List.takeWhile_append_of_pos wholeDigits, List.dropWhile_append_of_pos wholeDigits]
  cases fraction with
  | nil => simp [pointed, written, Numeral.readPower]
  | cons digit rest =>
      have point : isDigit '.' = false := by decide
      have taken : (digit :: rest).takeWhile isDigit = digit :: rest :=
        List.takeWhile_eq_self_iff.mpr fractionDigits
      have dropped : (digit :: rest).dropWhile isDigit = [] :=
        List.dropWhile_eq_nil_iff.mpr fractionDigits
      simp [pointed, point, taken, dropped, Numeral.readPower]

/-- **A numeral with fixed places reads back as its units.** -/
theorem read_placesText (places units : Nat) :
    Numeral.read (placesText places units).toList = some ⟨false, units, -(places : Int)⟩ := by
  have written : digitsOf (units / tenTo places) ≠ [] :=
    List.ne_nil_of_length_pos (length_digitsOf_pos _)
  have read := read_signed false written
    (fun digit member => (isDigit_eq digit).trans (isDigit_of_mem_digitsOf member))
    (fun digit (member : digit ∈ placeDigits places units) =>
      (isDigit_eq digit).trans (isDigit_of_mem_placeDigits member))
  rwa [digitsValue_split, length_placeDigits, ← toList_placesText] at read

end ChartCompiler
