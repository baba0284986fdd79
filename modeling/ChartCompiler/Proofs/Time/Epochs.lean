import ChartCompiler.Proofs.Number.Finiteness
import ChartCompiler.Proofs.Number.Places
import ChartCompiler.Proofs.Number.WholeDoubles
import ChartCompiler.Proofs.Text.Parts
import ChartCompiler.Proofs.Time.Reading
import ChartCompiler.Proofs.Time.Spelling

/-!
# Spellings of epochs

An epoch is a whole number with ten digits, which counts seconds, or with thirteen, which counts
milliseconds (`Instant.IsEpoch`).  It may be written as a number, as the digits of that number with
blanks around them, or as a double, and all of these are read as one instant
(`Instant.epoch_spellings_agree`).

The digits of a number are counted by comparing it with powers of ten, and those of a text by its
length.  A double below `10 ^ 15` is taken as the whole number it stands for, if it stands for one
(`Instant.wholeNumber?_eq_some_iff`); from there on it has too many digits, and so has every number
that does not fit into 64 bits.
-/

set_option autoImplicit false

namespace ChartCompiler

namespace Instant

/-! ## Counts -/

/-- A whole number with ten or thirteen digits. -/
def IsEpoch (count : ℤ) : Prop :=
  (10 ^ 9 ≤ |count| ∧ |count| < 10 ^ 10) ∨ (10 ^ 12 ≤ |count| ∧ |count| < 10 ^ 13)

theorem IsEpoch.lt {count : ℤ} (epoch : IsEpoch count) : |count| < 10 ^ 13 := by
  rcases epoch with ⟨-, short⟩ | ⟨-, short⟩
  · exact short.trans (by norm_num)
  · exact short

/-- The digits of a number are counted by comparing it with powers of ten. -/
theorem length_digitsOf_natAbs_iff (count : ℤ) {places : ℕ} (positive : 0 < places) :
    (digitsOf count.natAbs).length = places + 1 ↔
      10 ^ places ≤ |count| ∧ |count| < 10 ^ (places + 1) := by
  have few : (digitsOf count.natAbs).length ≤ places ↔ count.natAbs < 10 ^ places :=
    length_digitsOf_le_iff positive
  have fewer : (digitsOf count.natAbs).length ≤ places + 1 ↔ count.natAbs < 10 ^ (places + 1) :=
    length_digitsOf_le_iff (Nat.succ_pos places)
  have magnitude (power : ℕ) : |count| < 10 ^ power ↔ count.natAbs < 10 ^ power := by
    rw [Int.abs_eq_natAbs]
    exact_mod_cast Iff.rfl
  rw [magnitude, ← not_lt, magnitude, ← few, ← fewer]
  omega

/-- **Ten digits count seconds, thirteen digits count milliseconds, and nothing else is an
instant.** -/
theorem ofNumber?_eq (count : ℤ) :
    ofNumber? count =
      if 10 ^ 9 ≤ |count| ∧ |count| < 10 ^ 10 then some { seconds := count, nanoseconds := 0 }
      else if 10 ^ 12 ≤ |count| ∧ |count| < 10 ^ 13 then
        some { seconds := count / 1000, nanoseconds := (count % 1000).toNat * 1000000 }
      else none := by
  have ten : (digitsOf count.natAbs).length = 10 ↔ 10 ^ 9 ≤ |count| ∧ |count| < 10 ^ 10 :=
    length_digitsOf_natAbs_iff count (by decide)
  have thirteen : (digitsOf count.natAbs).length = 13 ↔ 10 ^ 12 ≤ |count| ∧ |count| < 10 ^ 13 :=
    length_digitsOf_natAbs_iff count (by decide)
  rw [ofNumber?, ofEpoch]
  exact if_congr ten rfl (if_congr thirteen rfl rfl)

theorem isSome_ofNumber?_iff (count : ℤ) : (ofNumber? count).isSome = true ↔ IsEpoch count := by
  rw [ofNumber?_eq, IsEpoch]
  split
  · next seconds => exact iff_of_true rfl (.inl seconds)
  · next noSeconds =>
    split
    · next milliseconds => exact iff_of_true rfl (.inr milliseconds)
    · next noMilliseconds =>
      refine iff_of_false nofun ?_
      rintro (seconds | milliseconds)
      · exact noSeconds seconds
      · exact noMilliseconds milliseconds

/-- A number that does not fit into 64 bits has too many digits. -/
theorem ofCell?_integer (count : ℤ) : ofCell? (.integer count) = ofNumber? count := by
  rw [ofCell?]
  split
  · rfl
  · next large =>
    have none : ¬ IsEpoch count := by
      intro epoch
      have fits : count < twoTo 63 := (le_abs_self count).trans_lt (epoch.lt.trans (by norm_num))
      exact large fits
    rw [← isSome_ofNumber?_iff, Option.not_isSome_iff_eq_none] at none
    exact none.symm

/-! ## Texts -/

theorem isBlank_of_mem_digitsOf {count : ℕ} {digit : Char} (member : digit ∈ digitsOf count) :
    Text.isBlank digit = false :=
  isBlank_of_isDigit (isDigit_of_mem_digitsOf member)

/-- The digits of a number are read as the number is, with any blanks around them. -/
theorem ofCell?_digits {front back : List Char}
    (blank : ∀ mark ∈ front ++ back, Text.isBlank mark = true) (count : ℕ) :
    ofCell? (.string (String.ofList (front ++ digitsOf count ++ back))) =
      ofCell? (.integer count) := by
  have written : digitsOf count ≠ [] := List.ne_nil_of_length_pos (length_digitsOf_pos count)
  have trimmed := Text.trimBlanks_append blank
    (fun _ starts => isBlank_of_mem_digitsOf (List.mem_of_head? starts))
    (fun _ ends => isBlank_of_mem_digitsOf (List.mem_of_getLast? ends)) written
  have small : (count : ℤ) < twoTo 63 ↔ count < twoTo 63 := Int.ofNat_lt
  rw [ofCell?, ofCell?, String.toList_ofList, trimmed,
    ofText?_eq_of_digits (fun _ => isDigit_of_mem_digitsOf) written, digitsValue_digitsOf,
    ofNumber?, Int.natAbs_natCast]
  exact if_congr small.symm rfl rfl

/-! ## Doubles -/

/-- The whole number that a double stands for is read off its parts. -/
theorem whole_of_parts {value : Float} (finite : value.isFinite = true) {whole : ℤ}
    (stands : valueOf value = whole) :
    (if (Binary.ofFloat value).negative then
        -(((Binary.ofFloat value).quotient.1 / (Binary.ofFloat value).quotient.2 : ℕ) : ℤ)
      else ((Binary.ofFloat value).quotient.1 / (Binary.ofFloat value).quotient.2 : ℕ)) =
      whole := by
  have parts := valueOf_eq_quotient finite
  have floor := Rat.floor_natCast_div_natCast (Binary.ofFloat value).quotient.1
    (Binary.ofFloat value).quotient.2
  rw [stands] at parts
  split at parts
  · next negative =>
    have magnitude : ((Binary.ofFloat value).quotient.1 : ℚ) / (Binary.ofFloat value).quotient.2 =
        (-whole : ℤ) := by
      rw [Int.cast_neg, parts, neg_neg]
    rw [magnitude, Int.floor_intCast] at floor
    rw [if_pos negative, Int.natCast_ediv, ← floor, neg_neg]
  · next positive =>
    rw [← parts, Int.floor_intCast] at floor
    rw [if_neg positive, Int.natCast_ediv, ← floor]

theorem limit_exact : (1e15 : Float).isFinite = true ∧ valueOf 1e15 = 10 ^ 15 := by
  have limit : (1e15 : Float) = Float.ofNat (10 ^ 15) := by decide +kernel
  obtain ⟨finite, value⟩ := ofNat_exact (10 ^ 15) (by norm_num)
  rw [limit, value]
  exact ⟨finite, by norm_num⟩

/-- **A double is taken as the whole number that it stands for, if that is small enough.** -/
theorem wholeNumber?_eq_some_iff {value : Float} {whole : ℤ} :
    wholeNumber? value = some whole ↔
      value.isFinite = true ∧ valueOf value = whole ∧ |whole| < 10 ^ 15 := by
  by_cases finite : value.isFinite = true
  · obtain ⟨limitFinite, limitValue⟩ := limit_exact
    obtain ⟨absFinite, absValue⟩ := abs_of_isFinite finite
    obtain ⟨floorFinite, floorValue⟩ := floorOf_eq finite
    have condition : (value.abs < 1e15 ∧ (floorOf value == value) = true) ↔
        |valueOf value| < 10 ^ 15 ∧ (⌊valueOf value⌋ : ℚ) = valueOf value := by
      rw [lt_iff_valueOf absFinite limitFinite, absValue, limitValue,
        beq_iff_valueOf floorFinite finite, floorValue]
    rw [wholeNumber?, and_iff_right finite]
    constructor
    · intro read
      split at read
      · next holds =>
        obtain ⟨small, stands⟩ := condition.mp holds
        have same := whole_of_parts finite stands.symm
        obtain rfl : ⌊valueOf value⌋ = whole := same.symm.trans (Option.some.inj read)
        rw [← stands] at small
        exact ⟨stands.symm, by exact_mod_cast small⟩
      · cases read
    · rintro ⟨stands, small⟩
      have holds : |valueOf value| < 10 ^ 15 ∧ (⌊valueOf value⌋ : ℚ) = valueOf value := by
        rw [stands, Int.floor_intCast]
        exact ⟨by exact_mod_cast small, rfl⟩
      rw [if_pos (condition.mpr holds)]
      exact congrArg some (whole_of_parts finite stands)
  · refine iff_of_false (fun read => ?_) fun parts => finite parts.1
    rw [wholeNumber?] at read
    split at read
    · next small => exact finite (isFinite_of_abs_lt small.1)
    · cases read

/-- A double that stands for a whole number below `10 ^ 15` is read as that number is. -/
theorem ofCell?_float_of_whole {value : Float} {whole : ℤ} (finite : value.isFinite = true)
    (stands : valueOf value = whole) (small : |whole| < 10 ^ 15) :
    ofCell? (.float value) = ofCell? (.integer whole) := by
  rw [ofCell?_integer, ofCell?, wholeNumber?_eq_some_iff.mpr ⟨finite, stands, small⟩,
    Option.bind_some]

theorem isSome_ofCell?_float_iff (value : Float) :
    (ofCell? (.float value)).isSome = true ↔
      value.isFinite = true ∧ ∃ whole : ℤ, valueOf value = whole ∧ IsEpoch whole := by
  constructor
  · intro read
    obtain ⟨instant, found⟩ := Option.isSome_iff_exists.mp read
    obtain ⟨whole, stands, counted⟩ := Option.bind_eq_some_iff.mp found
    obtain ⟨finite, same, -⟩ := wholeNumber?_eq_some_iff.mp stands
    have epoch := (isSome_ofNumber?_iff whole).mp (Option.isSome_iff_exists.mpr ⟨_, counted⟩)
    exact ⟨finite, whole, same, epoch⟩
  · rintro ⟨finite, whole, stands, epoch⟩
    have small : |whole| < 10 ^ 15 := epoch.lt.trans (by norm_num)
    rw [ofCell?_float_of_whole finite stands small, ofCell?_integer]
    exact (isSome_ofNumber?_iff whole).mpr epoch

/-! ## All spellings -/

/-- **An epoch is the same instant however it is spelled**: as a number, as digits with any blanks
around them, and below `10 ^ 15` as a double.  With ten digits it counts seconds, with thirteen
digits milliseconds.  Nothing else is an instant: neither another integer nor a double that does
not stand for such a number. -/
theorem epoch_spellings_agree (count : ℕ) (front back : List Char)
    (blank : ∀ mark ∈ front ++ back, Text.isBlank mark = true) :
    ofCell? (.string (String.ofList (front ++ (naturalText count).toList ++ back))) =
        ofCell? (.integer count) ∧
      (count < 10 ^ 15 → ofCell? (.float (Float.ofNat count)) = ofCell? (.integer count)) ∧
      ofCell? (.integer count) =
        (if 10 ^ 9 ≤ count ∧ count < 10 ^ 10 then some { seconds := count, nanoseconds := 0 }
        else if 10 ^ 12 ≤ count ∧ count < 10 ^ 13 then
          some { seconds := count / 1000, nanoseconds := count % 1000 * 1000000 }
        else none) ∧
      (∀ whole : ℤ, (ofCell? (.integer whole)).isSome = true ↔ IsEpoch whole) ∧
      ∀ value : Float, (ofCell? (.float value)).isSome = true ↔
        value.isFinite = true ∧ ∃ whole : ℤ, valueOf value = whole ∧ IsEpoch whole := by
  refine ⟨?_, fun small => ?_, ?_, fun whole => ?_, isSome_ofCell?_float_iff⟩
  · rw [toList_naturalText]
    exact ofCell?_digits blank count
  · obtain ⟨finite, stands⟩ := ofNat_exact count (small.trans (by norm_num))
    refine ofCell?_float_of_whole finite (by rw [stands, Int.cast_natCast]) ?_
    rw [Nat.abs_cast]
    exact_mod_cast small
  · rw [ofCell?_integer, ofNumber?_eq, Nat.abs_cast]
    norm_cast
  · rw [ofCell?_integer]
    exact isSome_ofNumber?_iff whole

/-- The start of 2025 in milliseconds, as a text among blanks, as a number and as a double. -/
theorem epoch_spellings_agree_of_2025 :
    ofCell? (.string " 1735689600000\n") = ofCell? (.integer 1735689600000) ∧
      ofCell? (.float 1735689600000) = ofCell? (.integer 1735689600000) ∧
      ofCell? (.integer 1735689600000) = some { seconds := 1735689600, nanoseconds := 0 } := by
  obtain ⟨text, double, instant, -⟩ :=
    epoch_spellings_agree 1735689600000 [' '] ['\n'] (by simp [Text.isBlank])
  rw [if_neg (by norm_num), if_pos (by norm_num)] at instant
  exact ⟨text, double (by norm_num), instant⟩

end Instant

end ChartCompiler
