import ChartCompiler.Proofs.Number.Digits
import ChartCompiler.Proofs.Time.Calendar
import ChartCompiler.Time.Reading
import Mathlib.Data.List.TakeWhile

/-!
# What instants are read

However a cell spells it, an instant is a count of few digits, or a date and a time of day that are
moved by less than a day (`legible_of_ofCell?`).  So it lies within a second, or within the leap
second that is counted on after it: its nanoseconds stay below two seconds
(`nanoseconds_lt_of_ofCell?`).  And it is never so far from the start of 1970 that the milliseconds
between two instants would not fit into 64 bits (`milliseconds_bounds_of_ofCell?`).

Only a fraction of a second brings nanoseconds into a text, and it has at most nine digits.
-/

set_option autoImplicit false

namespace ChartCompiler

namespace Spelling

/-! ## Fractions -/

theorem digits_of_readDigits {fewest most : Nat} {text digits rest : List Char}
    (read : readDigits fewest most text = some (digits, rest)) :
    digits.length ≤ most ∧ ∀ digit ∈ digits, isDigit digit = true := by
  simp only [readDigits] at read
  split at read
  · obtain ⟨rfl, rfl⟩ := Prod.mk.inj (Option.some.inj read)
    refine ⟨?_, fun digit member => List.mem_takeWhile_imp member⟩
    exact Nat.le_trans (List.takeWhile_sublist _).length_le (List.length_take_le _ _)
  · cases read

theorem readNanoseconds_lt {text rest : List Char} {nanoseconds : Nat}
    (read : readNanoseconds text = some (nanoseconds, rest)) : nanoseconds < 1000000000 := by
  obtain ⟨⟨digits, after⟩, found, same⟩ := Option.map_eq_some_iff.mp read
  obtain ⟨short, numeric⟩ := digits_of_readDigits found
  obtain ⟨rfl, -⟩ := Prod.mk.inj same
  calc digitsValue digits * tenTo (9 - digits.length)
      < tenTo digits.length * tenTo (9 - digits.length) :=
        Nat.mul_lt_mul_of_pos_right (digitsValue_lt numeric) (Nat.pow_pos (by decide))
    _ = tenTo (digits.length + (9 - digits.length)) := (Nat.pow_add _ _ _).symm
    _ = 1000000000 := by rw [Nat.add_sub_cancel' short]

theorem readFraction_lt {text rest : List Char} {nanoseconds : Nat}
    (read : readFraction text = some (nanoseconds, rest)) : nanoseconds < 1000000000 := by
  unfold readFraction at read
  split at read
  · exact readNanoseconds_lt read
  · obtain ⟨rfl, -⟩ := Prod.mk.inj (Option.some.inj read)
    decide

/-! ## Shapes -/

/-- A part is read into its own place, and only a fraction has nanoseconds. -/
theorem Part.read_nanoseconds_lt {part : Part} {parts given : DateParts} {text rest : List Char}
    (read : part.read parts text = some (given, rest)) (below : parts.nanoseconds < 1000000000) :
    given.nanoseconds < 1000000000 := by
  cases part with
  | fraction =>
      obtain ⟨⟨nanoseconds, after⟩, found, same⟩ := Option.map_eq_some_iff.mp read
      obtain ⟨rfl, -⟩ := Prod.mk.inj same
      exact readFraction_lt found
  | blanks =>
      obtain ⟨rfl, -⟩ := Prod.mk.inj (Option.some.inj read)
      exact below
  | _ =>
      obtain ⟨_, -, same⟩ := Option.map_eq_some_iff.mp read
      obtain ⟨rfl, -⟩ := Prod.mk.inj same
      exact below

theorem readParts_nanoseconds_lt {shape : List Part} {parts given : DateParts} {text : List Char}
    (read : readParts shape parts text = some given) (below : parts.nanoseconds < 1000000000) :
    given.nanoseconds < 1000000000 := by
  induction shape generalizing parts text with
  | nil =>
      cases text with
      | nil => exact Option.some.inj read ▸ below
      | cons character rest => cases read
  | cons part rest ih =>
      rw [readParts] at read
      split at read
      · next found => exact ih read (part.read_nanoseconds_lt found below)
      · cases read

/-! ## Offsets -/

/-- An offset is less than a day. -/
theorem readOffset_bounds {text rest : List Char} {offset : Int}
    (read : readOffset text = some (offset, rest)) : -86400 < offset ∧ offset < 86400 := by
  cases text with
  | nil => cases read
  | cons mark text =>
      simp only [readOffset] at read
      split at read
      case isTrue =>
        obtain ⟨rfl, -⟩ := Prod.mk.inj (Option.some.inj read)
        decide
      split at read
      case' isFalse => split at read
      case isFalse => cases read
      -- The two signs are followed by the same digits.
      all_goals
        obtain ⟨sign, signed, read⟩ := Option.bind_eq_some_iff.mp read
        obtain ⟨⟨hours, _⟩, -, read⟩ := Option.bind_eq_some_iff.mp read
        obtain ⟨_, -, read⟩ := Option.bind_eq_some_iff.mp read
        obtain ⟨⟨minutes, _⟩, -, read⟩ := Option.bind_eq_some_iff.mp read
        obtain rfl := Option.some.inj signed
        dsimp only at read
        split at read
        · obtain ⟨rfl, -⟩ := Prod.mk.inj (Option.some.inj read)
          omega
        · cases read

end Spelling

/-! ## Legible instants -/

/-- An instant is counted from the start of 1970, or it is named by the parts of a date and moved by
an offset. -/
inductive Instant.Legible : Instant → Prop where
  | counted {instant : Instant} (count : Int) (digits : Nat) (short : count.natAbs < tenTo digits)
      (read : ofEpoch count digits = some instant) : Legible instant
  | named {instant : Instant} (parts : DateParts) (offset : Int)
      (fraction : parts.nanoseconds < 1000000000) (near : -86400 < offset ∧ offset < 86400)
      (read : parts.toInstant? = some instant) :
      Legible { instant with seconds := instant.seconds - offset }

namespace Spelling

variable {text : List Char} {instant : Instant}

/-- The parts of a shape name an instant without an offset. -/
theorem legible_of_readParts {shape : List Part}
    (read : (readParts shape {} text).bind DateParts.toInstant? = some instant) :
    instant.Legible := by
  obtain ⟨parts, found, named⟩ := Option.bind_eq_some_iff.mp read
  have unmoved : { instant with seconds := instant.seconds - 0 } = instant := by
    rw [Int.sub_zero]
  exact unmoved ▸ .named parts 0 (readParts_nanoseconds_lt found (by decide)) (by decide) named

theorem legible_of_readClock (read : readClock text = some instant) : instant.Legible := by
  obtain ⟨shape, -, read⟩ := List.exists_of_findSome?_eq_some read
  exact legible_of_readParts read

theorem legible_of_readWithOffset (read : readWithOffset text = some instant) :
    instant.Legible := by
  obtain ⟨⟨year, _⟩, -, read⟩ := Option.bind_eq_some_iff.mp read
  obtain ⟨_, -, read⟩ := Option.bind_eq_some_iff.mp read
  obtain ⟨⟨month, _⟩, -, read⟩ := Option.bind_eq_some_iff.mp read
  obtain ⟨_, -, read⟩ := Option.bind_eq_some_iff.mp read
  obtain ⟨⟨day, text⟩, -, read⟩ := Option.bind_eq_some_iff.mp read
  dsimp only at read
  split at read
  case h_4 => cases read
  -- The mark before the time of day makes no difference to what follows.
  all_goals
    obtain ⟨_, -, read⟩ := Option.bind_eq_some_iff.mp read
    obtain ⟨⟨hour, _⟩, -, read⟩ := Option.bind_eq_some_iff.mp read
    obtain ⟨_, -, read⟩ := Option.bind_eq_some_iff.mp read
    obtain ⟨⟨minute, _⟩, -, read⟩ := Option.bind_eq_some_iff.mp read
    obtain ⟨_, -, read⟩ := Option.bind_eq_some_iff.mp read
    obtain ⟨⟨second, _⟩, -, read⟩ := Option.bind_eq_some_iff.mp read
    obtain ⟨⟨nanoseconds, _⟩, fraction, read⟩ := Option.bind_eq_some_iff.mp read
    obtain ⟨⟨offset, _⟩, moved, read⟩ := Option.bind_eq_some_iff.mp read
    dsimp only at read
    split at read
    · obtain ⟨here, named, rfl⟩ := Option.map_eq_some_iff.mp read
      exact .named { year, month, day, hour, minute, second, nanoseconds } offset
        (readFraction_lt fraction) (readOffset_bounds moved) named
    · cases read

end Spelling

namespace Instant

variable {instant : Instant}

/-- Digits are read as a count, unless they are too many. -/
theorem ofText?_eq_of_digits {digits : List Char}
    (numeric : ∀ digit ∈ digits, digit.isDigit = true) (occupied : digits ≠ []) :
    ofText? digits =
      if digitsValue digits < twoTo 63 then ofEpoch (digitsValue digits) digits.length
      else none := by
  have all : digits.all isDigit = true :=
    List.all_eq_true.mpr fun digit member => (isDigit_eq digit).trans (numeric digit member)
  simp [ofText?, occupied, all]

theorem legible_of_ofText? {text : List Char} (read : ofText? text = some instant) :
    instant.Legible := by
  rw [ofText?] at read
  split at read
  · cases read
  split at read
  · next digits =>
      split at read
      · exact .counted _ _ (by simpa using digitsValue_lt (List.all_eq_true.mp digits)) read
      · cases read
  split at read
  · exact Spelling.legible_of_readParts read
  split at read
  · exact Spelling.legible_of_readParts read
  cases found : Spelling.readWithOffset text with
  | none =>
      rw [found] at read
      exact Spelling.legible_of_readClock read
  | some zoned =>
      rw [found] at read
      exact Spelling.legible_of_readWithOffset (found.trans read)

/-- What is read from a cell is legible. -/
theorem legible_of_ofCell? {cell : Json} (read : ofCell? cell = some instant) :
    instant.Legible := by
  cases cell with
  | integer value =>
      rw [ofCell?] at read
      split at read
      · exact .counted _ _ (lt_tenTo_length_digitsOf _) read
      · cases read
  | float value =>
      obtain ⟨whole, -, read⟩ := Option.bind_eq_some_iff.mp read
      exact .counted _ _ (lt_tenTo_length_digitsOf _) read
  | string text => exact legible_of_ofText? read
  | _ => cases read

/-- An instant that is named lies in the days of its date, and a leap second goes on counting for
one second more. -/
theorem bounds_of_toInstant? {parts : DateParts} (named : parts.toInstant? = some instant)
    (fraction : parts.nanoseconds < 1000000000) :
    instant.nanoseconds < 2000000000 ∧ -8640000000000 < instant.seconds ∧
      instant.seconds < 8640000000000 := by
  rw [DateParts.toInstant?] at named
  split at named
  · next valid =>
      obtain ⟨dated, hour, minute, second⟩ := valid
      obtain ⟨low, high⟩ := Date.toDays_bounds dated
      split at named
      all_goals
        obtain rfl := Option.some.inj named
        simp only [ofDate]
        omega
  · cases named

/-- A count of ten digits is one of seconds, one of thirteen digits is one of milliseconds. -/
theorem bounds_of_ofEpoch {count : Int} {digits : Nat} (short : count.natAbs < tenTo digits)
    (read : ofEpoch count digits = some instant) :
    instant.nanoseconds < 1000000000 ∧ -10000000000 ≤ instant.seconds ∧
      instant.seconds < 10000000000 := by
  rw [ofEpoch] at read
  split at read
  · next seconds =>
      obtain rfl := Option.some.inj read
      rw [seconds, show tenTo 10 = 10000000000 from rfl] at short
      simp only
      omega
  · split at read
    · next milliseconds =>
        obtain rfl := Option.some.inj read
        rw [milliseconds, show tenTo 13 = 10000000000000 from rfl] at short
        simp only
        omega
    · cases read

/-- **The nanoseconds of an instant stay below two seconds.** -/
theorem nanoseconds_lt_of_ofCell? {cell : Json} (read : ofCell? cell = some instant) :
    instant.nanoseconds < 2000000000 := by
  cases legible_of_ofCell? read with
  | counted count digits short counted =>
      exact (bounds_of_ofEpoch short counted).1.trans (by decide)
  | named parts offset fraction near named => exact (bounds_of_toInstant? named fraction).1

/-- **The milliseconds of an instant take up at most 54 bits.** -/
theorem milliseconds_bounds_of_ofCell? {cell : Json} (read : ofCell? cell = some instant) :
    -(2 ^ 53) < instant.milliseconds ∧ instant.milliseconds < 2 ^ 53 := by
  cases legible_of_ofCell? read with
  | counted count digits short counted =>
      obtain ⟨nanoseconds, low, high⟩ := bounds_of_ofEpoch short counted
      rw [milliseconds]
      omega
  | named parts offset fraction near named =>
      obtain ⟨nanoseconds, low, high⟩ := bounds_of_toInstant? named fraction
      simp only [milliseconds]
      omega

end Instant

end ChartCompiler
