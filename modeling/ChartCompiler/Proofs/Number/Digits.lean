import ChartCompiler.Number.Numeral
import ChartCompiler.Number.Reading
import ChartCompiler.Text.Blank
import Mathlib.Data.List.Induction
import Mathlib.Logic.Function.Basic

/-!
# Numbers and their digits

A number can be read back from its digits, with or without leading zeros and with or without a
sign, so different numbers have different texts.  The other way round, a run of digits stands for a
number that is small for its length (`digitsValue_lt`).
-/

set_option autoImplicit false

namespace ChartCompiler

/-! ## Digits of numbers -/

theorem isDigit_of_mem_digitsOf {number : Nat} {digit : Char} (member : digit ∈ digitsOf number) :
    digit.isDigit = true :=
  Nat.isDigit_of_mem_toDigits (by decide) (by decide) member

theorem digitsOf_injective : Function.Injective digitsOf := by
  intro first second same
  have read := congrArg (Nat.ofDigitChars 10 · 0) same
  simpa [digitsOf] using read

theorem toList_naturalText (number : Nat) : (naturalText number).toList = digitsOf number :=
  String.toList_ofList

theorem naturalText_eq_toString (number : Nat) : naturalText number = toString number := rfl

theorem naturalText_injective : Function.Injective naturalText := by
  intro first second same
  have digits := congrArg String.toList same
  rw [toList_naturalText, toList_naturalText] at digits
  exact digitsOf_injective digits

/-! ## Signs -/

theorem toList_integerText (number : Int) :
    (integerText number).toList =
      if number < 0 then '-' :: digitsOf number.natAbs else digitsOf number.natAbs := by
  rw [integerText]
  split
  · rw [String.toList_append, toList_naturalText]
    rfl
  · exact toList_naturalText _

theorem integerText_eq_toString (number : Int) : integerText number = toString number := by
  cases number with
  | ofNat number => exact if_neg (Int.not_lt.mpr (Int.natCast_nonneg number))
  | negSucc number => exact if_pos (Int.negSucc_lt_zero number)

/-- The characters of an integer are digits and a sign. -/
theorem mem_toList_integerText {number : Int} {mark : Char}
    (member : mark ∈ (integerText number).toList) : mark = '-' ∨ mark.isDigit = true := by
  rw [toList_integerText] at member
  split at member
  · rcases List.mem_cons.mp member with sign | digit
    · exact .inl sign
    · exact .inr (isDigit_of_mem_digitsOf digit)
  · exact .inr (isDigit_of_mem_digitsOf member)

theorem integerText_injective : Function.Injective integerText := by
  intro first second same
  have texts := congrArg String.toList same
  -- A sign is no digit, so both numbers have one or neither.
  have unsigned (number : Nat) (rest : List Char) : '-' :: rest ≠ digitsOf number := by
    intro signed
    have digit := isDigit_of_mem_digitsOf (signed ▸ List.mem_cons_self (a := '-') (l := rest))
    revert digit
    decide
  rw [toList_integerText, toList_integerText] at texts
  split at texts <;> split at texts
  · have magnitudes := digitsOf_injective (List.cons.inj texts).2
    omega
  · exact absurd texts (unsigned _ _)
  · exact absurd texts.symm (unsigned _ _)
  · have magnitudes := digitsOf_injective texts
    omega

/-! ## Leading zeros -/

theorem toList_paddedText (width number : Nat) :
    (paddedText width number).toList =
      List.replicate (width - (digitsOf number).length) '0' ++ digitsOf number :=
  String.toList_ofList

theorem isDigit_of_mem_paddedText {width number : Nat} {digit : Char}
    (member : digit ∈ (paddedText width number).toList) : digit.isDigit = true := by
  rw [toList_paddedText] at member
  rcases List.mem_append.mp member with zero | digit
  · rw [List.eq_of_mem_replicate zero]
    decide
  · exact isDigit_of_mem_digitsOf digit

theorem notMem_paddedText {width number : Nat} {mark : Char} (noDigit : mark.isDigit = false) :
    mark ∉ (paddedText width number).toList := by
  intro member
  rw [isDigit_of_mem_paddedText member] at noDigit
  cases noDigit

/-- Leading zeros do not count. -/
theorem ofDigitChars_paddedText (width number : Nat) :
    Nat.ofDigitChars 10 (paddedText width number).toList 0 = number := by
  rw [toList_paddedText]
  induction width - (digitsOf number).length with
  | zero => simp [digitsOf]
  | succ zeros ih =>
      rw [List.replicate_succ, List.cons_append, Nat.ofDigitChars_cons]
      exact ih

/-- A number is written with exactly as many digits as are asked for when it has no more. -/
theorem length_paddedText {width number : Nat} (positive : 0 < width)
    (fits : number < tenTo width) : (paddedText width number).toList.length = width := by
  have short : (digitsOf number).length ≤ width :=
    (Nat.length_toDigits_le_iff (by decide) positive).mpr fits
  rw [toList_paddedText, List.length_append, List.length_replicate]
  omega

theorem paddedText_ne_nil {width number : Nat} (positive : 0 < width)
    (fits : number < tenTo width) : (paddedText width number).toList ≠ [] := by
  rw [← List.length_pos_iff, length_paddedText positive fits]
  exact positive

theorem paddedText_injective (width : Nat) : Function.Injective (paddedText width) := by
  intro first second same
  rw [← ofDigitChars_paddedText width first, same, ofDigitChars_paddedText]

/-! ## Decimals -/

theorem isDigit_of_mem_split {number : Decimal} {digit : Char}
    (member : digit ∈ number.split.1 ++ number.split.2) : digit.isDigit = true := by
  rw [Decimal.split] at member
  split at member
  · rw [List.append_nil, List.mem_append] at member
    rcases member with digit | zero
    · exact isDigit_of_mem_digitsOf digit
    · rw [List.eq_of_mem_replicate zero]
      decide
  · rw [List.take_append_drop, List.mem_append] at member
    rcases member with zero | digit
    · rw [List.eq_of_mem_replicate zero]
      decide
    · exact isDigit_of_mem_digitsOf digit

/-- A number with fixed places is written with digits and a point. -/
theorem mem_toList_placesText {places units : Nat} {mark : Char}
    (member : mark ∈ (placesText places units).toList) : mark = '.' ∨ mark.isDigit = true := by
  have digits {digit : Char} (here : digit ∈ (Decimal.mk units (-(places : Int))).split.1 ++
      (Decimal.mk units (-(places : Int))).split.2) : digit.isDigit = true :=
    isDigit_of_mem_split here
  revert member digits
  rw [placesText]
  rcases (Decimal.mk units (-(places : Int))).split with ⟨whole, fraction⟩
  intro member digits
  cases fraction with
  | nil =>
      rw [String.toList_ofList] at member
      exact .inr (digits (List.mem_append_left _ member))
  | cons digit rest =>
      simp only [String.toList_append, String.toList_ofList, List.mem_append] at member
      rcases member with (whole | point) | fraction
      · exact .inr (digits (List.mem_append_left _ whole))
      · exact .inl (List.mem_singleton.mp point)
      · exact .inr (digits (List.mem_append_right _ fraction))

/-! ## Runs of digits -/

theorem isDigit_eq (character : Char) : isDigit character = character.isDigit := by
  rw [isDigit, Char.isDigit, Bool.eq_iff_iff]
  simp [Char.le_def]

/-- Digits are no blanks. -/
theorem isBlank_of_isDigit {character : Char} (digit : character.isDigit = true) :
    Text.isBlank character = false := by
  have range := of_decide_eq_true ((isDigit_eq character).trans digit)
  have low : 48 ≤ character.toNat := range.1
  have high : character.toNat ≤ 57 := range.2
  refine decide_eq_false ?_
  omega

theorem digitsValue_eq (digits : List Char) :
    digitsValue digits = Nat.ofDigitChars 10 digits 0 := by
  simp only [digitsValue, Nat.ofDigitChars, Nat.mul_comm 10]
  rfl

theorem digitsValue_paddedText (width number : Nat) :
    digitsValue (paddedText width number).toList = number := by
  rw [digitsValue_eq, ofDigitChars_paddedText]

theorem digitsValue_append_singleton (digits : List Char) (digit : Char) :
    digitsValue (digits ++ [digit]) = digitsValue digits * 10 + (digit.toNat - 48) := by
  simp only [digitsValue, List.foldl_append, List.foldl_cons, List.foldl_nil]

theorem digitsValue_lt {digits : List Char} (numeric : ∀ digit ∈ digits, isDigit digit = true) :
    digitsValue digits < tenTo digits.length := by
  induction digits using List.reverseRecOn with
  | nil => decide
  | append_singleton digits digit ih =>
      have earlier := ih fun other member => numeric other (List.mem_append_left _ member)
      have last := of_decide_eq_true (numeric digit (List.mem_append_right _ List.mem_cons_self))
      have single : digit.toNat ≤ 57 := last.2
      rw [digitsValue_append_singleton, List.length_append, List.length_singleton]
      show _ < tenTo digits.length * 10
      omega

/-- A number is small for its digits, and has few digits when it is small. -/
theorem length_digitsOf_le_iff {number count : Nat} (positive : 0 < count) :
    (digitsOf number).length ≤ count ↔ number < tenTo count :=
  Nat.length_toDigits_le_iff (by decide) positive

theorem lt_tenTo_length_digitsOf (number : Nat) : number < tenTo (digitsOf number).length :=
  (length_digitsOf_le_iff Nat.length_toDigits_pos).mp Nat.le.refl

theorem digitsValue_append (front back : List Char) :
    digitsValue (front ++ back) = digitsValue front * tenTo back.length + digitsValue back := by
  induction back using List.reverseRecOn with
  | nil => simp [digitsValue, tenTo]
  | append_singleton back digit ih =>
      have place : tenTo (back.length + 1) = tenTo back.length * 10 := rfl
      rw [← List.append_assoc, digitsValue_append_singleton, ih, digitsValue_append_singleton,
        List.length_append, List.length_singleton, place, ← Nat.mul_assoc, Nat.add_mul,
        Nat.add_assoc]

theorem digitsValue_replicate_zero (count : Nat) : digitsValue (List.replicate count '0') = 0 := by
  induction count with
  | zero => rfl
  | succ count ih =>
      rw [List.replicate_succ', digitsValue_append_singleton, ih]
      rfl

/-- Of two runs of digits of one length, the one that stands for less comes first. -/
theorem lt_of_digitsValue_lt {first second : List Char}
    (numeric : ∀ digit ∈ first, digit.isDigit = true)
    (numeric' : ∀ digit ∈ second, digit.isDigit = true) (length : first.length = second.length)
    (less : digitsValue first < digitsValue second) : first < second := by
  induction first generalizing second with
  | nil =>
      obtain rfl := List.length_eq_zero_iff.mp length.symm
      exact absurd less (Nat.lt_irrefl _)
  | cons digit rest ih =>
      cases second with
      | nil => cases length
      | cons digit' rest' =>
          obtain ⟨-, restNumeric⟩ := List.forall_mem_cons.mp numeric
          obtain ⟨isDigit', restNumeric'⟩ := List.forall_mem_cons.mp numeric'
          have places : rest.length = rest'.length := Nat.succ.inj length
          have value (digit : Char) (rest : List Char) : digitsValue (digit :: rest) =
              (digit.toNat - 48) * tenTo rest.length + digitsValue rest := by
            rw [← List.singleton_append, digitsValue_append]
            simp [digitsValue]
          rw [value, value, ← places] at less
          rw [List.cons_lt_cons_iff]
          rcases Nat.lt_trichotomy digit.toNat digit'.toNat with before | same | after
          · exact .inl (Char.lt_def.mpr (UInt32.lt_iff_toNat_lt.mpr before))
          · obtain rfl : digit = digit' := Char.ext (UInt32.toNat_inj.mp same)
            exact .inr ⟨rfl, ih restNumeric restNumeric' places (Nat.lt_of_add_lt_add_left less)⟩
          · -- The first digit outweighs all that follows.
            have low : 48 ≤ digit'.toNat := (of_decide_eq_true ((isDigit_eq _).trans isDigit')).1
            have more : (digit'.toNat - 48 + 1) * tenTo rest.length ≤
                (digit.toNat - 48) * tenTo rest.length := Nat.mul_le_mul_right _ (by omega)
            have short := digitsValue_lt fun digit member =>
              (isDigit_eq digit).trans (restNumeric' digit member)
            rw [Nat.succ_mul, places] at more
            rw [places] at less
            omega

end ChartCompiler
