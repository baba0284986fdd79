import ChartCompiler.Proofs.Time.Calendar
import ChartCompiler.Proofs.Time.Spelling
import Mathlib.Algebra.BigOperators.Group.List.Basic

/-!
# Moments as they are written

A moment is written as a date and a time of day with a space or the letter T between them.  Seconds
may be left out, a fraction of one to nine digits may follow them, and an offset from universal time
may stand at the end, as the letter Z or as hours and minutes.

The strict grammar demands seconds and an offset, and the lenient one knows no offset but the letter
Z, which is taken off before.  So every moment is read as the instant it means, unless an offset in
hours and minutes follows the minute directly: such a text is no instant
(`Written.Moment.read_back`).
-/

set_option autoImplicit false

namespace ChartCompiler

namespace Written

/-- A date of a year with four digits. -/
structure Day where
  /-- The date. -/
  date : Date
  /-- The date exists. -/
  isValid : date.IsValid
  /-- The year has no more than four digits. -/
  fourDigits : 0 ≤ date.year ∧ date.year ≤ 9999

/-- A date with four digits for the year and two for month and day. -/
def Day.text (day : Day) : String :=
  paddedText 4 day.date.year.toNat ++ "-" ++ paddedText 2 day.date.month ++ "-" ++
    paddedText 2 day.date.day

/-- What stands between the date and the time of day. -/
inductive Separator where
  /-- A space. -/
  | space
  /-- The letter T. -/
  | letter
deriving DecidableEq

/-- The separator as a character. -/
def Separator.mark : Separator → Char
  | space => ' '
  | letter => 'T'

/-- The digits behind the point of a second. -/
structure Fraction where
  /-- The digits. -/
  digits : List Char
  /-- They are digits. -/
  numeric : ∀ digit ∈ digits, digit.isDigit = true
  /-- There is one digit at least and nine at most. -/
  length : 1 ≤ digits.length ∧ digits.length ≤ 9

/-- A fraction in nanoseconds. -/
def Fraction.nanoseconds (fraction : Fraction) : Nat :=
  digitsValue fraction.digits * tenTo (9 - fraction.digits.length)

/-- A fraction as it is written. -/
def Fraction.text (fraction : Fraction) : String :=
  "." ++ String.ofList fraction.digits

/-- How the second is written. -/
inductive Seconds where
  /-- Not at all. -/
  | omitted
  /-- As a number that a fraction may follow. -/
  | given (second : Fin 60) (fraction : Option Fraction)

namespace Seconds

/-- The second as it is written. -/
def text : Seconds → String
  | omitted => ""
  | given second fraction => ":" ++ paddedText 2 second ++ fraction.elim "" Fraction.text

/-- Whether the minute is the last that is written. -/
def isOmitted : Seconds → Bool
  | omitted => true
  | given _ _ => false

/-- The second that is meant. -/
def second : Seconds → Fin 60
  | omitted => 0
  | given second _ => second

/-- The nanoseconds that are meant. -/
def nanoseconds : Seconds → Nat
  | omitted => 0
  | given _ fraction => fraction.elim 0 Fraction.nanoseconds

end Seconds

/-- How the offset from universal time is written. -/
inductive Offset where
  /-- Not at all. -/
  | omitted
  /-- As the letter Z. -/
  | zulu
  /-- As hours and minutes, ahead of universal time or behind it. -/
  | numeric (behind : Bool) (hours : Fin 24) (minutes : Fin 60)

namespace Offset

/-- The offset as it is written. -/
def text : Offset → String
  | omitted => ""
  | zulu => "Z"
  | numeric behind hours minutes =>
    (if behind then "-" else "+") ++ paddedText 2 hours ++ ":" ++ paddedText 2 minutes

theorem toList_text_omitted : omitted.text.toList = [] := rfl

/-- Whether hours and minutes are written. -/
def isNumeric : Offset → Bool
  | numeric _ _ _ => true
  | _ => false

/-- The offset in seconds. -/
def seconds : Offset → Int
  | omitted | zulu => 0
  | numeric behind hours minutes =>
    if behind then -(hours * 3600 + minutes * 60) else hours * 3600 + minutes * 60

end Offset

/-- A date with a time of day. -/
structure Moment where
  /-- The date. -/
  day : Day
  /-- What follows the date. -/
  separator : Separator
  /-- The hour. -/
  hour : Fin 24
  /-- The minute. -/
  minute : Fin 60
  /-- The second. -/
  seconds : Seconds
  /-- The offset from universal time. -/
  offset : Offset

/-- The moment at which a day starts. -/
def Day.start (day : Day) : Moment :=
  { day, separator := .space, hour := 0, minute := 0, seconds := .omitted, offset := .omitted }

namespace Moment

/-- A moment as it is written, up to the minute. -/
def head (moment : Moment) : String :=
  moment.day.text ++ String.singleton moment.separator.mark ++ paddedText 2 moment.hour ++ ":" ++
    paddedText 2 moment.minute

/-- A moment as it is written. -/
def text (moment : Moment) : String :=
  moment.head ++ moment.seconds.text ++ moment.offset.text

/-- The instant that is meant: the local time less the offset. -/
def instant (moment : Moment) : Instant :=
  let localTime := Instant.ofDate moment.day.date moment.hour moment.minute moment.seconds.second
    moment.seconds.nanoseconds
  { localTime with seconds := localTime.seconds - moment.offset.seconds }

end Moment

end Written

namespace Instant

theorem byteLength_eq_sum (text : List Char) : byteLength text = (text.map Char.utf8Size).sum := by
  rw [byteLength, List.sum_eq_foldl, List.foldl_map]

theorem length_le_byteLength (text : List Char) : text.length ≤ byteLength text := by
  have bytes : ∀ size ∈ text.map Char.utf8Size, 1 ≤ size := by
    intro size member
    obtain ⟨character, -, rfl⟩ := List.mem_map.mp member
    exact Char.utf8Size_pos character
  have length := List.length_le_sum_of_one_le _ bytes
  rwa [List.length_map, ← byteLength_eq_sum] at length

/-- A text with a dash is no count of seconds or milliseconds. -/
theorem ofText?_of_dash {text : List Char} (dash : '-' ∈ text) :
    ofText? text =
      if byteLength text = 7 then Spelling.readDay (text ++ ['-', '0', '1'])
      else if byteLength text = 10 then Spelling.readDay text
      else (Spelling.readWithOffset text).or
        (Spelling.readClock (if text.getLast? = some 'Z' then text.dropLast else text)) := by
  have nonempty : text.isEmpty = false := by
    cases text with
    | nil => cases dash
    | cons => rfl
  have marked : text.all isDigit = false := List.all_eq_false.mpr ⟨'-', dash, by decide⟩
  simp only [ofText?, nonempty, marked, Bool.false_eq_true, if_false]
  cases Spelling.readWithOffset text with
  | none => rw [Option.none_or]
  | some instant => rw [Option.some_or]

end Instant

namespace Written

/-- A number of the hour or of the minute has two digits. -/
theorem twoDigits {most : Nat} (number : Fin most) (short : most ≤ tenTo 2 := by decide) :
    (number : Nat) < tenTo 2 :=
  Nat.lt_of_lt_of_le number.isLt short

theorem Day.year_lt (day : Day) : day.date.year.toNat < tenTo 4 := by
  have years := day.fourDigits
  refine Nat.lt_of_le_of_lt ?_ (by decide : 9999 < tenTo 4)
  omega

theorem Day.year_eq (day : Day) : (day.date.year.toNat : Int) = day.date.year := by
  have years := day.fourDigits
  omega

theorem Day.month_lt (day : Day) : day.date.month < tenTo 2 := by
  have month := day.isValid.2.2.2.1
  exact Nat.lt_of_le_of_lt month (by decide)

theorem Day.day_lt (day : Day) : day.date.day < tenTo 2 := by
  have short := Nat.le_trans day.isValid.2.2.2.2.2 (Date.daysInMonth_le _ _)
  exact Nat.lt_of_le_of_lt short (by decide)

/-- The parts of a day, with a time of day. -/
def Day.parts (day : Day) (hour minute second nanoseconds : Nat) : DateParts :=
  { year := day.date.year, month := day.date.month, day := day.date.day, hour, minute, second,
    nanoseconds }

theorem Day.toList_text_append (day : Day) (rest : List Char) :
    day.text.toList ++ rest = (paddedText 4 day.date.year.toNat).toList ++ '-' ::
      ((paddedText 2 day.date.month).toList ++ '-' ::
        ((paddedText 2 day.date.day).toList ++ rest)) := by
  simp [Day.text, String.toList_append]

theorem Day.toInstant?_parts (day : Day) (hour : Fin 24) (minute second : Fin 60)
    (nanoseconds : Nat) : (day.parts hour minute second nanoseconds).toInstant? =
      some (Instant.ofDate day.date hour minute second nanoseconds) := by
  have real : day.date.IsValid ∧ (hour : Nat) < 24 ∧ (minute : Nat) < 60 ∧ (second : Nat) ≤ 60 :=
    ⟨day.isValid, hour.isLt, minute.isLt, Nat.le_of_lt second.isLt⟩
  have whole : (second : Nat) ≠ 60 := Nat.ne_of_lt second.isLt
  exact (if_pos real).trans (if_neg whole)

/-- The part of the lenient grammar that reads a separator. -/
def Separator.part : Separator → Spelling.Part
  | space => .blanks
  | letter => .mark 'T'

theorem Moment.toList_head_append (moment : Moment) (rest : List Char) :
    moment.head.toList ++ rest = moment.day.text.toList ++ moment.separator.mark ::
      ((paddedText 2 moment.hour).toList ++ ':' ::
        ((paddedText 2 moment.minute).toList ++ rest)) := by
  simp [Moment.head, String.toList_append]

end Written

namespace Spelling

open Written

/-! ## The lenient grammar -/

theorem readParts_dayParts (day : Day) (more : List Part) (rest : List Char) :
    readParts (dayParts ++ more) {} (day.text.toList ++ rest) =
      readParts more (day.parts 0 0 0 0) rest := by
  rw [day.toList_text_append]
  simp only [dayParts, List.cons_append, List.nil_append, readParts, Part.read,
    readYear_paddedText day.year_lt, readShort_paddedText day.month_lt,
    readShort_paddedText day.day_lt, readMark, if_true, Option.map_some, day.year_eq]
  rfl

section Head

variable (moment : Moment) (more : List Part) (rest : List Char)

theorem readParts_head :
    readParts (dayParts ++ moment.separator.part :: .hour :: .mark ':' :: .minute :: more) {}
        (moment.head.toList ++ rest) =
      readParts more (moment.day.parts moment.hour moment.minute 0 0) rest := by
  have hour := twoDigits moment.hour
  have minute := twoDigits moment.minute
  have separated (later : List Char) :
      moment.separator.part.read (moment.day.parts 0 0 0 0) (moment.separator.mark ::
        ((paddedText 2 moment.hour).toList ++ later)) =
      some (moment.day.parts 0 0 0 0, (paddedText 2 moment.hour).toList ++ later) := by
    cases moment.separator with
    | space =>
        have blank : Text.dropBlanks (' ' :: ((paddedText 2 moment.hour).toList ++ later)) =
            Text.dropBlanks ((paddedText 2 moment.hour).toList ++ later) :=
          List.dropWhile_cons_of_pos (by decide)
        rw [dropBlanks_paddedText (by decide) hour] at blank
        exact congrArg (fun text => some (moment.day.parts 0 0 0 0, text)) blank
    | letter => rfl
  rw [moment.toList_head_append, readParts_dayParts]
  simp only [readParts, separated]
  simp only [Part.read, readShort_paddedText hour, readShort_paddedText minute, readMark,
    if_true, Option.map_some]
  rfl

/-- The other separator is not read. -/
theorem readParts_head_of_ne {other : Separator} (differs : other ≠ moment.separator) :
    readParts (dayParts ++ other.part :: .hour :: more) {} (moment.head.toList ++ rest) = none := by
  rw [moment.toList_head_append, readParts_dayParts]
  cases other with
  | space =>
      cases separated : moment.separator with
      | space => exact absurd separated.symm differs
      | letter =>
          have blanks (later : List Char) : Text.dropBlanks ('T' :: later) = 'T' :: later :=
            List.dropWhile_cons_of_neg (by decide)
          have noHour (later : List Char) : readShort ('T' :: later) = none :=
            readShort_of_not_digit (by decide) (by decide) later
          simp only [Separator.part, Separator.mark, readParts, Part.read, blanks, noHour,
            Option.map_none]
  | letter =>
      cases separated : moment.separator with
      | space => rfl
      | letter => exact absurd separated.symm differs

/-- A day with hour and minute ends there or goes on with seconds. -/
theorem readClock_head :
    readClock (moment.head.toList ++ rest) =
      ((readParts [.mark ':', .second, .fraction]
          (moment.day.parts moment.hour moment.minute 0 0) rest).bind DateParts.toInstant?).or
        ((readParts [] (moment.day.parts moment.hour moment.minute 0 0) rest).bind
          DateParts.toInstant?) := by
  have shape (separator : Separator) (more : List Part) :
      readParts (dayParts ++ separator.part :: .hour :: .mark ':' :: .minute :: more) {}
          (moment.head.toList ++ rest) =
        if separator = moment.separator then
          readParts more (moment.day.parts moment.hour moment.minute 0 0) rest
        else none := by
    split
    · next same => rw [same, readParts_head]
    · next differs => exact readParts_head_of_ne moment _ rest differs
  have space := shape .space
  have letter := shape .letter
  simp only [Separator.part] at space letter
  simp only [readClock, clockShapes, List.findSome?_cons, List.findSome?_nil, space, letter]
  cases moment.separator <;>
    simp only [if_true, reduceCtorEq, if_false, Option.bind_none] <;>
    cases Option.bind _ _ <;> cases Option.bind _ _ <;> rfl

/-! ## The strict grammar -/

/-- The strict grammar demands seconds and an offset. -/
theorem readWithOffset_head :
    readWithOffset (moment.head.toList ++ rest) = (do
      let text ← readMark ':' rest
      let (second, text) ← readFixed 2 text
      let (nanoseconds, text) ← readFraction text
      let (offset, text) ← readOffset text
      if text.isEmpty then
        let parts := moment.day.parts moment.hour moment.minute second nanoseconds
        parts.toInstant?.map fun instant => { instant with seconds := instant.seconds - offset }
      else
        none) := by
  have hour := twoDigits moment.hour
  have minute := twoDigits moment.minute
  have found {Value Result : Type} (value : Value) (next : Value → Option Result) :
      (some value >>= next) = next value := rfl
  have mark (character : Char) (later : List Char) :
      readMark character (character :: later) = some later := if_pos rfl
  rw [moment.toList_head_append, moment.day.toList_text_append, readWithOffset,
    readFixed_paddedText (by decide) moment.day.year_lt, found]
  dsimp only
  rw [mark, found, readFixed_paddedText (by decide) moment.day.month_lt, found]
  dsimp only
  rw [mark, found, readFixed_paddedText (by decide) moment.day.day_lt, found]
  dsimp only
  split
  case h_4 letter _ space =>
    cases separated : moment.separator with
    | space => exact absurd (by rw [separated]; rfl) (space _)
    | letter => exact absurd (by rw [separated]; rfl) (letter _)
  -- The mark before the time of day makes no difference to what follows.
  all_goals
    next same =>
    obtain ⟨-, rfl⟩ := List.cons.inj same
    rw [found, readFixed_paddedText (by decide) hour, found]
    dsimp only
    rw [mark, found, readFixed_paddedText (by decide) minute, found, moment.day.year_eq]
    rfl

end Head

/-! ## Seconds -/

section Seconds

variable {second : Fin 60} {fraction : Option Fraction} {rest : List Char}

theorem readFraction_text (ends : ∀ next ∈ rest.head?, next.isDigit = false ∧ next ≠ '.') :
    readFraction ((fraction.elim "" Fraction.text).toList ++ rest) =
      some (fraction.elim 0 Fraction.nanoseconds, rest) := by
  cases fraction with
  | none =>
      refine readFraction_of_ne ?_
      rintro later rfl
      exact (ends '.' rfl).2 rfl
  | some fraction =>
      have text : (fraction.text).toList ++ rest = '.' :: (fraction.digits ++ rest) := by
        simp [Fraction.text, String.toList_append]
      rw [Option.elim_some, text, readFraction_append fraction.numeric fraction.length.1
        fraction.length.2 fun next first => (ends next first).1]
      rfl

theorem toList_given_append : (Seconds.given second fraction).text.toList ++ rest =
    ':' :: ((paddedText 2 second).toList ++ ((fraction.elim "" Fraction.text).toList ++ rest)) := by
  simp [Seconds.text, String.toList_append]

/-- Seconds that are written at the end are read by the lenient grammar. -/
theorem readParts_given (parts : DateParts) :
    readParts [.mark ':', .second, .fraction] parts (Seconds.given second fraction).text.toList =
      some { parts with second, nanoseconds := fraction.elim 0 Fraction.nanoseconds } := by
  have behind : readFraction ((fraction.elim "" Fraction.text).toList ++ []) =
      some (fraction.elim 0 Fraction.nanoseconds, []) := readFraction_text nofun
  rw [← List.append_nil (Seconds.text _).toList, toList_given_append]
  simp only [readParts, Part.read, readMark, if_true, Option.map_some,
    readShort_paddedText (twoDigits second), behind]

end Seconds

/-- An offset does not go on with the seconds. -/
theorem ends_before_offset (offset : Offset) :
    ∀ next ∈ offset.text.toList.head?, next.isDigit = false ∧ next ≠ '.' := by
  cases offset with
  | omitted => nofun
  | zulu => simp [Offset.text]
  | numeric behind hours minutes =>
      cases behind <;> simp [Offset.text, String.toList_append]

theorem readOffset_text {offset : Offset} (present : offset ≠ .omitted) :
    readOffset offset.text.toList = some (offset.seconds, []) := by
  cases offset with
  | omitted => exact absurd rfl present
  | zulu => rfl
  | numeric behind hours minutes =>
      have readHours := readFixed_paddedText (by decide) (twoDigits hours)
      have readMinutes := readFixed_paddedText (by decide) (twoDigits minutes) []
      rw [List.append_nil] at readMinutes
      cases behind <;>
        simp [Offset.text, String.toList_append, readOffset, readHours, readMinutes, readMark,
          Offset.seconds]

end Spelling

/-! ## Texts -/

namespace Written

open Spelling

namespace Moment

variable (moment : Moment)

theorem toList_text : moment.text.toList =
    moment.head.toList ++ (moment.seconds.text.toList ++ moment.offset.text.toList) := by
  simp [text, String.toList_append]

theorem length_head : moment.head.toList.length = 16 := by
  have hour := length_paddedText (by decide) (twoDigits moment.hour)
  have minute := length_paddedText (by decide) (twoDigits moment.minute)
  have year := length_paddedText (by decide) moment.day.year_lt
  have month := length_paddedText (by decide) moment.day.month_lt
  have day := length_paddedText (by decide) moment.day.day_lt
  simp [head, Day.text, String.toList_append, year, month, day, hour, minute]

/-- The letter Z stands only for universal time. -/
theorem zulu_not_mem_text (other : moment.offset ≠ .zulu) : 'Z' ∉ moment.text.toList := by
  have number {width number : Nat} : 'Z' ∉ (paddedText width number).toList :=
    notMem_paddedText (by decide)
  have head : 'Z' ∉ moment.head.toList := by
    cases separated : moment.separator <;>
      simp [Moment.head, Day.text, String.toList_append, number, separated, Separator.mark]
  have seconds : 'Z' ∉ moment.seconds.text.toList := by
    cases moment.seconds with
    | omitted => exact List.not_mem_nil
    | given second fraction =>
        cases fraction with
        | none => simp [Seconds.text, String.toList_append, number]
        | some fraction =>
            have digits : 'Z' ∉ fraction.digits := fun member =>
              absurd (fraction.numeric _ member) (by decide)
            simp [Seconds.text, Fraction.text, String.toList_append, number, digits]
  have offset : 'Z' ∉ moment.offset.text.toList := by
    cases written : moment.offset with
    | omitted => exact List.not_mem_nil
    | zulu => exact absurd written other
    | numeric behind hours minutes =>
        cases behind <;> simp [Offset.text, String.toList_append, number]
  simp [moment.toList_text, head, seconds, offset]

theorem dash_mem_text : '-' ∈ moment.text.toList := by
  simp [toList_text, head, Day.text, String.toList_append]

/-- A moment is too long for a month or a day. -/
theorem ofText?_text :
    Instant.ofText? moment.text.toList =
      ((readWithOffset moment.text.toList).or (readClock
        (if moment.text.toList.getLast? = some 'Z' then moment.text.toList.dropLast
          else moment.text.toList))) := by
  have long : 16 ≤ moment.text.toList.length := by
    rw [toList_text, List.length_append, moment.length_head]
    exact Nat.le_add_right _ _
  have bytes := Nat.le_trans long (Instant.length_le_byteLength moment.text.toList)
  rw [Instant.ofText?_of_dash moment.dash_mem_text, if_neg (by omega), if_neg (by omega)]

/-- A text without the letter Z is read as it stands. -/
theorem ofText?_of_not_zulu (other : moment.offset ≠ .zulu) :
    Instant.ofText? moment.text.toList =
      (readWithOffset moment.text.toList).or (readClock moment.text.toList) := by
  have unmarked : moment.text.toList.getLast? ≠ some 'Z' := fun last =>
    moment.zulu_not_mem_text other (List.mem_of_getLast? last)
  rw [ofText?_text, if_neg unmarked]

section Omitted

variable {moment} (omitted : moment.seconds = .omitted)

include omitted

theorem toList_text_of_omitted :
    moment.text.toList = moment.head.toList ++ moment.offset.text.toList := by
  rw [toList_text, omitted]
  rfl

/-- The strict grammar demands seconds. -/
theorem readWithOffset_of_omitted : readWithOffset moment.text.toList = none := by
  have mark : readMark ':' moment.offset.text.toList = none := by
    cases moment.offset with
    | omitted | zulu => rfl
    | numeric behind hours minutes =>
        cases behind <;> simp [Offset.text, String.toList_append, readMark]
  rw [toList_text_of_omitted omitted, readWithOffset_head, mark]
  rfl

theorem readClock_of_omitted (universal : moment.offset.seconds = 0) :
    readClock moment.head.toList = some moment.instant := by
  have read := readClock_head moment []
  rw [List.append_nil] at read
  rw [read]
  refine (moment.day.toInstant?_parts moment.hour moment.minute 0 0).trans ?_
  simp [Moment.instant, omitted, Seconds.second, Seconds.nanoseconds, universal]

/-- Without seconds nothing but the letter Z may follow the minute. -/
theorem ofText?_of_omitted : Instant.ofText? moment.text.toList =
    if moment.offset.isNumeric then none else some moment.instant := by
  have strict := readWithOffset_of_omitted omitted
  have text := toList_text_of_omitted omitted
  cases written : moment.offset with
  | omitted =>
      have bare : moment.text.toList = moment.head.toList := by
        rw [text, written, Offset.toList_text_omitted, List.append_nil]
      rw [ofText?_of_not_zulu moment (by simp [written]), strict, Option.none_or, bare]
      exact readClock_of_omitted omitted (by rw [written]; rfl)
  | zulu =>
      have marked : moment.text.toList = moment.head.toList ++ ['Z'] := by
        rw [text, written]
        rfl
      rw [ofText?_text, strict, Option.none_or, marked, List.getLast?_concat, if_pos rfl,
        List.dropLast_concat]
      exact readClock_of_omitted omitted (by rw [written]; rfl)
  | numeric behind hours minutes =>
      rw [ofText?_of_not_zulu moment (by simp [written]), strict, Option.none_or, text,
        readClock_head, written]
      cases behind <;>
        simp [Offset.text, String.toList_append, readParts, Part.read, readMark, Offset.isNumeric]

end Omitted

section Given

variable {moment} {second : Fin 60} {fraction : Option Fraction}
  (given : moment.seconds = .given second fraction)

include given

theorem toList_text_of_given : moment.text.toList =
    moment.head.toList ++ ':' :: ((paddedText 2 second).toList ++
      ((fraction.elim "" Fraction.text).toList ++ moment.offset.text.toList)) := by
  rw [toList_text, given, toList_given_append]

/-- The strict grammar goes on with the offset. -/
theorem readWithOffset_of_given :
    readWithOffset moment.text.toList = (do
      let (offset, text) ← readOffset moment.offset.text.toList
      if text.isEmpty then
        let instant := Instant.ofDate moment.day.date moment.hour moment.minute second
          (fraction.elim 0 Fraction.nanoseconds)
        some { instant with seconds := instant.seconds - offset }
      else
        none) := by
  rw [toList_text_of_given given, readWithOffset_head]
  simp only [readMark, if_true, readFixed_paddedText (by decide) (twoDigits second),
    readFraction_text (ends_before_offset _), Option.bind_eq_bind, Option.bind_some,
    Day.toInstant?_parts, Option.map_some]

theorem ofText?_of_given : Instant.ofText? moment.text.toList = some moment.instant := by
  by_cases omitted : moment.offset = .omitted
  · have strict : readWithOffset moment.text.toList = none := by
      rw [readWithOffset_of_given given, omitted]
      rfl
    have text : moment.text.toList =
        moment.head.toList ++ (Seconds.given second fraction).text.toList := by
      rw [toList_text, omitted, given, Offset.toList_text_omitted, List.append_nil]
    have named : (moment.day.parts moment.hour moment.minute second
        (fraction.elim 0 Fraction.nanoseconds)).toInstant? = some moment.instant := by
      rw [Day.toInstant?_parts]
      simp [Moment.instant, given, omitted, Seconds.second, Seconds.nanoseconds, Offset.seconds]
    rw [ofText?_of_not_zulu moment (by simp [omitted]), strict, Option.none_or, text,
      readClock_head, readParts_given]
    exact congrArg (Option.or · _) named
  · have strict : readWithOffset moment.text.toList = some moment.instant := by
      rw [readWithOffset_of_given given, readOffset_text omitted]
      simp [Moment.instant, given, Seconds.second, Seconds.nanoseconds]
    rw [ofText?_text, strict, Option.some_or]

end Given

/-- **A moment is read as the instant it means, unless an offset in hours and minutes follows the
minute directly.** -/
theorem read_back : Instant.ofText? moment.text.toList =
    if moment.seconds.isOmitted ∧ moment.offset.isNumeric then none else some moment.instant := by
  cases written : moment.seconds with
  | omitted =>
      rw [ofText?_of_omitted written]
      simp [Seconds.isOmitted]
  | given second fraction =>
      rw [ofText?_of_given written]
      simp [Seconds.isOmitted]

/-- Six minutes past five in the morning, two hours ahead of universal time. -/
def ahead : Moment :=
  { day := { date := { year := 2025, month := 3, day := 4 }, isValid := by decide,
             fourDigits := by decide }
    separator := .letter
    hour := 5
    minute := 6
    seconds := .omitted
    offset := .numeric false 2 0 }

/-- The instant that this text means is not read from it. -/
theorem ahead_unread : ahead.text = "2025-03-04T05:06+02:00" ∧
    Instant.ofText? "2025-03-04T05:06+02:00".toList = none ∧
    ahead.instant = { seconds := 1741057560, nanoseconds := 0 } := by
  decide +kernel

end Moment

end Written

end ChartCompiler
