import ChartCompiler.Proofs.Number.Digits
import ChartCompiler.Time.Reading
import Mathlib.Data.List.TakeWhile

/-!
# Reading numbers that were written

A number that is written with a fixed number of digits is read back by both grammars: the strict one
knows how many digits to take, and the lenient one takes as many as it may.  What follows the number
is left over.  A fraction of a second ends at the first character that is no digit.
-/

set_option autoImplicit false

namespace ChartCompiler

namespace Spelling

/-- A run of digits is read up to what follows it. -/
theorem readDigits_append {fewest most : Nat} {digits rest : List Char}
    (numeric : ∀ digit ∈ digits, digit.isDigit = true) (enough : fewest ≤ digits.length)
    (short : digits.length ≤ most)
    (ends : digits.length < most → ∀ next ∈ rest.head?, next.isDigit = false) :
    readDigits fewest most (digits ++ rest) = some (digits, rest) := by
  have taken : ((digits ++ rest).take most).takeWhile isDigit = digits := by
    rw [List.take_append, List.take_of_length_le short,
      List.takeWhile_append_of_pos fun digit member =>
        (isDigit_eq digit).trans (numeric digit member)]
    obtain same | less := Nat.eq_or_lt_of_le short
    · simp [same]
    · obtain ⟨room, more⟩ := Nat.exists_eq_add_of_lt less
      cases rest with
      | nil => simp
      | cons next later =>
          have stop := ends less next rfl
          rw [← isDigit_eq] at stop
          have left : most - digits.length = room + 1 := by omega
          rw [left, List.take_succ_cons, List.takeWhile_cons_of_neg (by simp [stop]),
            List.append_nil]
  rw [readDigits, taken, if_pos enough, List.drop_left]

section Fixed

variable {width number : Nat} (positive : 0 < width) (fits : number < tenTo width)
  (rest : List Char)

include positive fits

/-- A number with as many digits as may be taken is read back. -/
theorem readDigits_paddedText {fewest : Nat} (enough : fewest ≤ width) :
    readDigits fewest width ((paddedText width number).toList ++ rest) =
      some ((paddedText width number).toList, rest) := by
  have length := length_paddedText positive fits
  refine readDigits_append (fun _ => isDigit_of_mem_paddedText) (by omega) (by omega) ?_
  omega

theorem readFixed_paddedText :
    readFixed width ((paddedText width number).toList ++ rest) = some (number, rest) := by
  simp only [readFixed, readDigits_paddedText positive fits rest (Nat.le_refl _), Option.map_some,
    digitsValue_paddedText]

/-- A number that is written with a fixed number of digits starts with a digit. -/
theorem exists_digit_cons_paddedText : ∃ digit others, digit.isDigit = true ∧
    (paddedText width number).toList ++ rest = digit :: others := by
  obtain ⟨digit, others, written⟩ := List.exists_cons_of_ne_nil (paddedText_ne_nil positive fits)
  have numeric : digit ∈ (paddedText width number).toList := written ▸ List.mem_cons_self
  exact ⟨digit, others ++ rest, isDigit_of_mem_paddedText numeric, by rw [written]; rfl⟩

theorem dropBlanks_paddedText :
    Text.dropBlanks ((paddedText width number).toList ++ rest) =
      (paddedText width number).toList ++ rest := by
  obtain ⟨digit, others, numeric, written⟩ := exists_digit_cons_paddedText positive fits rest
  rw [written, Text.dropBlanks, List.dropWhile_cons_of_neg (by simp [isBlank_of_isDigit numeric])]

end Fixed

variable {number : Nat}

theorem readShort_paddedText (fits : number < tenTo 2) (rest : List Char) :
    readShort ((paddedText 2 number).toList ++ rest) = some (number, rest) := by
  have read : readDigits 1 2 ((paddedText 2 number).toList ++ rest) =
      some ((paddedText 2 number).toList, rest) :=
    readDigits_paddedText (by decide) fits rest (by decide)
  simp only [readShort, dropBlanks_paddedText (by decide) fits, read, Option.map_some,
    digitsValue_paddedText]

theorem readYear_paddedText (fits : number < tenTo 4) (rest : List Char) :
    readYear ((paddedText 4 number).toList ++ rest) = some ((number : Int), rest) := by
  obtain ⟨digit, others, numeric, written⟩ :=
    exists_digit_cons_paddedText (by decide) fits rest
  have minus : digit ≠ '-' := by
    rintro rfl
    cases numeric
  have plus : digit ≠ '+' := by
    rintro rfl
    cases numeric
  have unsigned : readYear (digit :: others) =
      (readDigits 1 4 (digit :: others)).map fun taken =>
        ((digitsValue taken.1 : Int), taken.2) := by
    have blanks : Text.dropBlanks (digit :: others) = digit :: others :=
      List.dropWhile_cons_of_neg (by simp [isBlank_of_isDigit numeric])
    simp only [readYear, blanks]
    split
    · next same => exact absurd (List.cons.inj same).1 minus
    · next same => exact absurd (List.cons.inj same).1 plus
    · rfl
  have read : readDigits 1 4 ((paddedText 4 number).toList ++ rest) =
      some ((paddedText 4 number).toList, rest) :=
    readDigits_paddedText (by decide) fits rest (by decide)
  rw [written, unsigned, ← written]
  simp only [read, Option.map_some, digitsValue_paddedText]

/-! ## Fractions -/

theorem readFraction_of_ne {text : List Char} (plain : ∀ rest, text ≠ '.' :: rest) :
    readFraction text = some (0, text) := by
  unfold readFraction
  split
  · next rest => exact absurd rfl (plain rest)
  · rfl

/-- One to nine digits after the point are read up to what follows them. -/
theorem readFraction_append {digits rest : List Char}
    (numeric : ∀ digit ∈ digits, digit.isDigit = true) (nonempty : 1 ≤ digits.length)
    (short : digits.length ≤ 9) (ends : ∀ next ∈ rest.head?, next.isDigit = false) :
    readFraction ('.' :: (digits ++ rest)) =
      some (digitsValue digits * tenTo (9 - digits.length), rest) := by
  have skipped : rest.dropWhile isDigit = rest := by
    cases rest with
    | nil => rfl
    | cons next later =>
        have stop := ends next rfl
        rw [← isDigit_eq] at stop
        exact List.dropWhile_cons_of_neg (by simp [stop])
  have read : readDigits 1 9 (digits ++ rest) = some (digits, rest) :=
    readDigits_append numeric nonempty short fun _ => ends
  simp only [readFraction, readNanoseconds, read, Option.map_some, skipped]

/-- A part that asks for a digit does not read anything else. -/
theorem readShort_of_not_digit {mark : Char} (noBlank : Text.isBlank mark = false)
    (noDigit : isDigit mark = false) (rest : List Char) : readShort (mark :: rest) = none := by
  have blanks : Text.dropBlanks (mark :: rest) = mark :: rest :=
    List.dropWhile_cons_of_neg (by simp [noBlank])
  rw [readShort, blanks, readDigits]
  simp [List.takeWhile_cons_of_neg, noDigit]

end Spelling

end ChartCompiler
