import ChartCompiler.Format.Value
import ChartCompiler.Proofs.Number.Places
import Mathlib.Data.List.Infix
import Mathlib.Tactic.Tauto

/-!
# Grouped numbers

A grouped number is a sign, the digits of the whole part with commas between them, and a point with
the decimals up to the last one that is not zero (`toList_groupedText`).  Neither the commas nor the
dropped zeros change whether a digit other than zero is shown, so the sign is there exactly when
the quantity is negative and some digit says so (`startsWithMinus_groupedText`).
-/

set_option autoImplicit false

namespace ChartCompiler

/-! ## Commas and dropped zeros -/

theorem mem_of_mem_groupDigits {digits : List Char} {mark : Char}
    (member : mark ∈ groupDigits digits) : mark = ',' ∨ mark ∈ digits := by
  fun_induction groupDigits digits with
  | case1 => cases member
  | case2 digit rest grouped ih =>
      simp only [List.mem_cons] at member ⊢
      tauto
  | case3 digit rest grouped ih =>
      simp only [List.mem_cons] at member ⊢
      tauto

theorem mem_groupDigits_of_mem {digits : List Char} {digit : Char} (member : digit ∈ digits) :
    digit ∈ groupDigits digits := by
  fun_induction groupDigits digits with
  | case1 => cases member
  | case2 digit rest grouped ih =>
      simp only [List.mem_cons] at member ⊢
      tauto
  | case3 digit rest grouped ih =>
      simp only [List.mem_cons] at member ⊢
      tauto

theorem head?_groupDigits (digits : List Char) : (groupDigits digits).head? = digits.head? := by
  fun_cases groupDigits digits <;> rfl

/-- Only zeros are dropped. -/
theorem exists_dropTrailingZeros_append (digits : List Char) :
    ∃ zeros, dropTrailingZeros digits ++ List.replicate zeros '0' = digits := by
  have dropped : ∀ digit ∈ digits.reverse.takeWhile (· == '0'), digit = '0' := by
    intro digit member
    simpa using List.mem_takeWhile_imp member
  refine ⟨(digits.reverse.takeWhile (· == '0')).length, ?_⟩
  rw [dropTrailingZeros, ← List.reverse_replicate, ← List.eq_replicate_of_mem dropped,
    ← List.reverse_append, List.takeWhile_append_dropWhile, List.reverse_reverse]

theorem getLast?_dropTrailingZeros (digits : List Char) :
    (dropTrailingZeros digits).getLast? ≠ some '0' := by
  intro zero
  have stops := List.head?_dropWhile_not (· == '0') digits.reverse
  rw [dropTrailingZeros, List.getLast?_reverse] at zero
  rw [zero] at stops
  cases stops

theorem mem_of_mem_dropTrailingZeros {digits : List Char} {digit : Char}
    (member : digit ∈ dropTrailingZeros digits) : digit ∈ digits := by
  obtain ⟨zeros, split⟩ := exists_dropTrailingZeros_append digits
  exact split ▸ List.mem_append_left _ member

theorem mem_dropTrailingZeros_of_mem {digits : List Char} {digit : Char} (member : digit ∈ digits)
    (nonzero : digit ≠ '0') : digit ∈ dropTrailingZeros digits := by
  obtain ⟨zeros, split⟩ := exists_dropTrailingZeros_append digits
  rw [← split, List.mem_append] at member
  exact member.resolve_right fun zero => nonzero (List.eq_of_mem_replicate zero)

theorem dropTrailingZeros_eq_nil_iff {digits : List Char} :
    dropTrailingZeros digits = [] ↔ ∀ digit ∈ digits, digit = '0' := by
  rw [dropTrailingZeros, List.reverse_eq_nil_iff, List.dropWhile_eq_nil_iff]
  simp only [List.mem_reverse, beq_iff_eq]

/-! ## Digits other than zero -/

/-- Whether a digit other than zero stands in a text. -/
def ShowsNonzero (text : String) : Prop :=
  ∃ digit ∈ text.toList, digit.isDigit = true ∧ digit ≠ '0'

/-- Whether a text starts with a minus sign. -/
def StartsWithMinus (text : String) : Prop :=
  text.toList.head? = some '-'

/-- Digits stand for zero when all of them are zero. -/
theorem digitsValue_eq_zero_iff {digits : List Char}
    (numeric : ∀ digit ∈ digits, digit.isDigit = true) :
    digitsValue digits = 0 ↔ ∀ digit ∈ digits, digit = '0' := by
  induction digits using List.reverseRecOn with
  | nil => exact iff_of_true rfl nofun
  | append_singleton digits digit ih =>
      have isDigit' := numeric digit (List.mem_append_right _ List.mem_cons_self)
      have earlier := ih fun other member => numeric other (List.mem_append_left _ member)
      have range := of_decide_eq_true ((isDigit_eq digit).trans isDigit')
      have low : 48 ≤ digit.toNat := range.1
      have last : digit.toNat - 48 = 0 ↔ digit = '0' := by
        constructor
        · intro none
          exact Char.ext (UInt32.toNat_inj.mp (by show digit.toNat = 48; omega))
        · rintro rfl
          rfl
      rw [digitsValue_append_singleton, List.forall_mem_append, List.forall_mem_singleton,
        ← earlier, ← last]
      omega

theorem digitsOf_eq_zero_iff {number : Nat} : digitsOf number = ['0'] ↔ number = 0 := by
  constructor
  · intro zero
    rw [← digitsValue_digitsOf number, zero]
    rfl
  · rintro rfl
    rfl

variable {α : Type} [Quantity α]

/-- **The characters of a grouped number.** -/
theorem toList_groupedText {value : α} (finite : Quantity.isFinite value = true) (places : Nat) :
    (groupedText value places).toList =
      (if value < Quantity.zero ∧ Quantity.nearestUnits places value ≠ 0 then ['-'] else []) ++
        groupDigits (digitsOf (Quantity.nearestUnits places value / tenTo places)) ++
        pointed (dropTrailingZeros (placeDigits places (Quantity.nearestUnits places value))) := by
  generalize units_eq : Quantity.nearestUnits places value = units
  have zero : units = 0 ↔
      digitsOf (units / tenTo places) = ['0'] ∧
        dropTrailingZeros (placeDigits places units) = [] := by
    rw [digitsOf_eq_zero_iff, dropTrailingZeros_eq_nil_iff,
      ← digitsValue_eq_zero_iff fun _ => isDigit_of_mem_placeDigits, digitsValue_placeDigits]
    constructor
    · rintro rfl
      exact ⟨Nat.zero_div _, Nat.zero_mod _⟩
    · rintro ⟨quotient, rest⟩
      rw [← Nat.div_add_mod units (tenTo places), quotient, rest, Nat.mul_zero]
  have negative : (decide (value < Quantity.zero) &&
      (digitsOf (units / tenTo places) != ['0'] ||
        !(dropTrailingZeros (placeDigits places units)).isEmpty)) = true ↔
      value < Quantity.zero ∧ units ≠ 0 := by
    rw [Ne, zero]
    simp only [Bool.and_eq_true, decide_eq_true_eq, Bool.or_eq_true, bne_iff_ne,
      Bool.not_eq_true', List.isEmpty_eq_false_iff]
    tauto
  rw [groupedText, if_pos finite, units_eq, split_places]
  simp only [String.toList_ofList, negative, pointed]
  cases dropTrailingZeros (placeDigits places units) <;> simp

/-- A text that has the digits of a number, but perhaps not all of the zeros, shows one that is not
zero unless the number is zero. -/
theorem showsNonzero_iff {text : String} {units : Nat} (places : Nat)
    (same : ∀ digit : Char, digit.isDigit = true → digit ≠ '0' →
      (digit ∈ text.toList ↔ digit ∈ digitsOf (units / tenTo places) ++ placeDigits places units)) :
    ShowsNonzero text ↔ units ≠ 0 := by
  have numeric : ∀ digit ∈ digitsOf (units / tenTo places) ++ placeDigits places units,
      digit.isDigit = true := by
    intro digit member
    rcases List.mem_append.mp member with whole | fraction
    · exact isDigit_of_mem_digitsOf whole
    · exact isDigit_of_mem_placeDigits fraction
  rw [← digitsValue_split places units, Ne, digitsValue_eq_zero_iff numeric]
  push Not
  constructor
  · rintro ⟨digit, member, isDigit, nonzero⟩
    exact ⟨digit, (same digit isDigit nonzero).mp member, nonzero⟩
  · rintro ⟨digit, member, nonzero⟩
    exact ⟨digit, (same digit (numeric digit member) nonzero).mpr member, numeric digit member,
      nonzero⟩

theorem mem_pointed (fraction : List Char) {mark : Char} (other : mark ≠ '.') :
    mark ∈ pointed fraction ↔ mark ∈ fraction := by
  cases fraction with
  | nil => rfl
  | cons digit rest => simp [pointed, other]

theorem ne_of_isDigit {mark digit : Char} (numeric : digit.isDigit = true)
    (other : mark.isDigit = false) : digit ≠ mark := by
  rintro rfl
  rw [numeric] at other
  cases other

theorem showsNonzero_groupedText {value : α} (finite : Quantity.isFinite value = true)
    (places : Nat) :
    ShowsNonzero (groupedText value places) ↔ Quantity.nearestUnits places value ≠ 0 := by
  refine showsNonzero_iff places fun digit numeric nonzero => ?_
  have comma : digit ≠ ',' := ne_of_isDigit numeric rfl
  have minus : digit ≠ '-' := ne_of_isDigit numeric rfl
  rw [toList_groupedText finite, List.mem_append, List.mem_append, List.mem_append,
    mem_pointed _ (ne_of_isDigit numeric rfl)]
  constructor
  · rintro ((sign | whole) | fraction)
    · split at sign
      · exact absurd (List.mem_singleton.mp sign) minus
      · cases sign
    · exact .inl ((mem_of_mem_groupDigits whole).resolve_left comma)
    · exact .inr (mem_of_mem_dropTrailingZeros fraction)
  · rintro (whole | fraction)
    · exact .inl (.inr (mem_groupDigits_of_mem whole))
    · exact .inr (mem_dropTrailingZeros_of_mem fraction nonzero)

/-- **A grouped number has a sign exactly when it is negative and shows a digit other than
zero.** -/
theorem startsWithMinus_groupedText {value : α} (finite : Quantity.isFinite value = true)
    (places : Nat) :
    StartsWithMinus (groupedText value places) ↔
      value < Quantity.zero ∧ ShowsNonzero (groupedText value places) := by
  rw [showsNonzero_groupedText finite, StartsWithMinus, toList_groupedText finite]
  split
  · next signed => exact iff_of_true rfl signed
  · next unsigned =>
    refine iff_of_false (fun minus => ?_) unsigned
    obtain ⟨first, starts, digit⟩ :=
      head?_digitsOf (Quantity.nearestUnits places value / tenTo places)
    rw [List.nil_append, List.head?_append, head?_groupDigits, starts] at minus
    obtain rfl : first = '-' := Option.some.inj minus
    cases digit

end ChartCompiler
