import ChartCompiler.Record.Basic
import ChartCompiler.Time.Calendar

/-!
# Reading instants

Cells spell instants in a handful of shapes: a day, a month, a day with a time of day and perhaps an
offset from universal time, and counts of seconds (ten digits) or milliseconds (thirteen digits)
from the start of 1970.

Two grammars meet here.  The strict one fixes the width of every number and demands an offset; the
lenient one allows blanks before a number, numbers with fewer digits and a signed year, and knows
no offset.
-/

set_option autoImplicit false

namespace ChartCompiler

/-- The parts of a spelled date and time, as they are read. -/
structure DateParts where
  /-- The year. -/
  year : Int := 0
  /-- The month. -/
  month : Nat := 0
  /-- The day of the month. -/
  day : Nat := 0
  /-- The hour. -/
  hour : Nat := 0
  /-- The minute. -/
  minute : Nat := 0
  /-- The second, 60 in a leap second. -/
  second : Nat := 0
  /-- The fraction of the second. -/
  nanoseconds : Nat := 0

namespace DateParts

/-- The instant these parts name in universal time, if the date and the time of day exist.  The
leap second continues the second before it. -/
def toInstant? (parts : DateParts) : Option Instant :=
  let date : Date := { year := parts.year, month := parts.month, day := parts.day }
  if date.IsValid ∧ parts.hour < 24 ∧ parts.minute < 60 ∧ parts.second ≤ 60 then
    if parts.second = 60 then
      some (Instant.ofDate date parts.hour parts.minute 59 (1000000000 + parts.nanoseconds))
    else
      some (Instant.ofDate date parts.hour parts.minute parts.second parts.nanoseconds)
  else
    none

end DateParts

namespace Spelling

/-! ## Numbers -/

/-- Reads at least `fewest` and at most `most` digits. -/
def readDigits (fewest most : Nat) (text : List Char) : Option (List Char × List Char) :=
  let digits := (text.take most).takeWhile isDigit
  if fewest ≤ digits.length then some (digits, text.drop digits.length) else none

/-- Reads a number of exactly `width` digits. -/
def readFixed (width : Nat) (text : List Char) : Option (Nat × List Char) :=
  (readDigits width width text).map fun (digits, rest) => (digitsValue digits, rest)

/-- Reads a number of one or two digits after any blanks. -/
def readShort (text : List Char) : Option (Nat × List Char) :=
  (readDigits 1 2 (Text.dropBlanks text)).map fun (digits, rest) => (digitsValue digits, rest)

/-- Reads a year after any blanks: up to four digits, or any number of digits after a sign.  A
number beyond 64 bits is none. -/
def readYear (text : List Char) : Option (Int × List Char) :=
  let start := Text.dropBlanks text
  let signed := fun (rest : List Char) =>
    match readDigits 1 rest.length rest with
    | some (digits, rest) =>
      if digitsValue digits < twoTo 63 then some (digitsValue digits, rest) else none
    | none => none
  match start with
  | '-' :: rest => (signed rest).map fun (value, rest) => (-(value : Int), rest)
  | '+' :: rest => (signed rest).map fun (value, rest) => ((value : Int), rest)
  | _ => (readDigits 1 4 start).map fun (digits, rest) => ((digitsValue digits : Int), rest)

/-- Reads the digits after the point of a second as nanoseconds; digits beyond the ninth are
skipped. -/
def readNanoseconds (text : List Char) : Option (Nat × List Char) :=
  (readDigits 1 9 text).map fun (digits, rest) =>
    (digitsValue digits * tenTo (9 - digits.length), rest.dropWhile isDigit)

/-- Reads an optional point with the digits after it. -/
def readFraction : List Char → Option (Nat × List Char)
  | '.' :: rest => readNanoseconds rest
  | text => some (0, text)

/-- Takes a fixed character off the front. -/
def readMark (mark : Char) : List Char → Option (List Char)
  | first :: rest => if first = mark then some rest else none
  | [] => none

/-! ## The lenient grammar -/

/-- One part of a spelling. -/
inductive Part where
  /-- The year. -/
  | year
  /-- The month. -/
  | month
  /-- The day of the month. -/
  | day
  /-- The hour. -/
  | hour
  /-- The minute. -/
  | minute
  /-- The second. -/
  | second
  /-- The optional fraction of a second. -/
  | fraction
  /-- A fixed character. -/
  | mark (character : Char)
  /-- Any blanks. -/
  | blanks
  deriving DecidableEq, Repr

/-- Reads one part. -/
def Part.read (part : Part) (parts : DateParts) (text : List Char) :
    Option (DateParts × List Char) :=
  match part with
  | .year => (readYear text).map fun (value, rest) => ({ parts with year := value }, rest)
  | .month => (readShort text).map fun (value, rest) => ({ parts with month := value }, rest)
  | .day => (readShort text).map fun (value, rest) => ({ parts with day := value }, rest)
  | .hour => (readShort text).map fun (value, rest) => ({ parts with hour := value }, rest)
  | .minute => (readShort text).map fun (value, rest) => ({ parts with minute := value }, rest)
  | .second => (readShort text).map fun (value, rest) => ({ parts with second := value }, rest)
  | .fraction =>
    (readFraction text).map fun (value, rest) => ({ parts with nanoseconds := value }, rest)
  | .mark character => (readMark character text).map fun rest => (parts, rest)
  | .blanks => some (parts, Text.dropBlanks text)

/-- Reads a whole text as a sequence of parts. -/
def readParts : List Part → DateParts → List Char → Option DateParts
  | [], parts, [] => some parts
  | [], _, _ :: _ => none
  | part :: rest, parts, text =>
    match part.read parts text with
    | some (parts, text) => readParts rest parts text
    | none => none

/-- A day. -/
def dayParts : List Part :=
  [.year, .mark '-', .month, .mark '-', .day]

/-- The shapes of a day with a time of day, in the order they are tried. -/
def clockShapes : List (List Part) :=
  [ dayParts ++ [.blanks, .hour, .mark ':', .minute, .mark ':', .second, .fraction],
    dayParts ++ [.mark 'T', .hour, .mark ':', .minute, .mark ':', .second, .fraction],
    dayParts ++ [.blanks, .hour, .mark ':', .minute],
    dayParts ++ [.mark 'T', .hour, .mark ':', .minute] ]

/-- Reads a text as a day. -/
def readDay (text : List Char) : Option Instant :=
  (readParts dayParts {} text).bind DateParts.toInstant?

/-- Reads a text as a day with a time of day in universal time. -/
def readClock (text : List Char) : Option Instant :=
  clockShapes.findSome? fun shape => (readParts shape {} text).bind DateParts.toInstant?

/-! ## The strict grammar -/

/-- Reads an offset from universal time, in seconds. -/
def readOffset : List Char → Option (Int × List Char)
  | [] => none
  | mark :: rest =>
    if mark = 'Z' ∨ mark = 'z' then some (0, rest)
    else do
      let sign : Int ←
        if mark = '+' then some 1
        else if mark = '-' ∨ mark.toNat = 0x2212 then some (-1)
        else none
      let (hours, rest) ← readFixed 2 rest
      let rest ← readMark ':' rest
      let (minutes, rest) ← readFixed 2 rest
      if hours < 24 ∧ minutes < 60 then
        some (sign * (hours * 3600 + minutes * 60), rest)
      else
        none

/-- Reads a text as a day with a time of day and an offset. -/
def readWithOffset (text : List Char) : Option Instant := do
  let (year, text) ← readFixed 4 text
  let text ← readMark '-' text
  let (month, text) ← readFixed 2 text
  let text ← readMark '-' text
  let (day, text) ← readFixed 2 text
  let text ←
    match text with
    | 'T' :: rest => some rest
    | 't' :: rest => some rest
    | ' ' :: rest => some rest
    | _ => none
  let (hour, text) ← readFixed 2 text
  let text ← readMark ':' text
  let (minute, text) ← readFixed 2 text
  let text ← readMark ':' text
  let (second, text) ← readFixed 2 text
  let (nanoseconds, text) ← readFraction text
  let (offset, text) ← readOffset text
  if text.isEmpty then
    let local? : Option Instant :=
      DateParts.toInstant? { year, month, day, hour, minute, second, nanoseconds }
    local?.map fun instant => { instant with seconds := instant.seconds - offset }
  else
    none

end Spelling

/-! ## Cells -/

namespace Instant

/-- The instant of a count from the start of 1970 that is written with this many digits. -/
def ofEpoch (count : Int) (digits : Nat) : Option Instant :=
  if digits = 10 then some { seconds := count, nanoseconds := 0 }
  else if digits = 13 then
    some { seconds := count / 1000, nanoseconds := (count % 1000).toNat * 1000000 }
  else
    none

/-- The number of UTF-8 bytes of a text. -/
def byteLength (text : List Char) : Nat :=
  text.foldl (fun length character => length + character.utf8Size) 0

/-- Reads a text as an instant; the text must not have blanks around it. -/
def ofText? (text : List Char) : Option Instant :=
  if text.isEmpty then none
  else if text.all isDigit then
    if digitsValue text < twoTo 63 then ofEpoch (digitsValue text) text.length else none
  else if byteLength text = 7 then Spelling.readDay (text ++ ['-', '0', '1'])
  else if byteLength text = 10 then Spelling.readDay text
  else
    match Spelling.readWithOffset text with
    | some instant => some instant
    | none =>
      Spelling.readClock (if text.getLast? = some 'Z' then text.dropLast else text)

/-- The whole number a double stands for, when it is small enough to be one exactly. -/
def wholeNumber? (value : Float) : Option Int :=
  if value.abs < 1e15 ∧ floorOf value == value then
    let parts := Binary.ofFloat value
    let (numerator, denominator) := parts.quotient
    let magnitude : Int := (numerator / denominator : Nat)
    some (if parts.negative then -magnitude else magnitude)
  else
    none

/-- The instant a number stands for, by the number of its digits. -/
def ofNumber? (value : Int) : Option Instant :=
  ofEpoch value (digitsOf value.natAbs).length

/-- Reads a cell as an instant. -/
def ofCell? : Json → Option Instant
  | .integer value => if value < twoTo 63 then ofNumber? value else none
  | .float value => (wholeNumber? value).bind ofNumber?
  | .string text => ofText? (Text.trimBlanks text.toList)
  | _ => none

end Instant

end ChartCompiler
