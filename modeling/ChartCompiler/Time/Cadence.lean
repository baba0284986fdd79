import ChartCompiler.Time.Reading

/-!
# How finely a sequence is sampled

The categories of a chart form a time series when any of the first thirty reads as an instant.  The
cadence of the series follows from the least gap between two distinct instants among those, not
from the average gap, so a sparse or irregular series is still labelled as finely as its closest
two samples demand.  A single instant counts as finer than a day only when it spells a time of day
other than midnight.
-/

set_option autoImplicit false

namespace ChartCompiler

/-- How far apart the samples of an axis are. -/
inductive Cadence where
  /-- Less than a day. -/
  | subDaily
  /-- A day. -/
  | daily
  /-- About a week. -/
  | weekly
  /-- About a month. -/
  | monthly
  /-- About a year. -/
  | yearly
  /-- The axis is not made of instants. -/
  | unknown
  deriving DecidableEq, Repr

namespace Cadence

/-- The key of a cadence in data. -/
def key : Cadence → String
  | subDaily => "sub-daily"
  | daily => "daily"
  | weekly => "weekly"
  | monthly => "monthly"
  | yearly => "yearly"
  | unknown => "unknown"

/-- The name of a cadence in messages. -/
def name : Cadence → String
  | subDaily => "SubDaily"
  | daily => "Daily"
  | weekly => "Weekly"
  | monthly => "Monthly"
  | yearly => "Yearly"
  | unknown => "Unknown"

/-- The cadences in order. -/
def all : List Cadence := [subDaily, daily, weekly, monthly, yearly, unknown]

/-- The cadence with a key; any other text is unknown. -/
def ofKey (text : String) : Cadence :=
  (all.find? fun cadence => cadence.key = text).getD unknown

end Cadence

/-- What is known about the categories of an axis as instants. -/
structure Sampling where
  /-- How far apart the samples are. -/
  cadence : Cadence
  /-- Whether labels leave the time of day out. -/
  omitsClock : Bool
  /-- Whether any sample reads as an instant. -/
  isTimeSeries : Bool
  deriving DecidableEq, Repr

namespace Sampling

/-- The sampling of an axis without instants. -/
def untimed : Sampling :=
  { cadence := .unknown, omitsClock := false, isTimeSeries := false }

/-- The sampling of a time series with a cadence. -/
def ofCadence (cadence : Cadence) : Sampling :=
  { cadence, omitsClock := decide (cadence ≠ .subDaily), isTimeSeries := true }

end Sampling

namespace Cadence

/-- The number of leading categories that are looked at. -/
def sampleCount : Nat := 30

/-- The milliseconds of a day. -/
def dayMilliseconds : Int := 86400000

/-- The cadence of a gap between two instants, in milliseconds. -/
def ofGap (gap : Int) : Cadence :=
  if gap < dayMilliseconds then subDaily
  else if 335 * dayMilliseconds ≤ gap then yearly
  else if 28 * dayMilliseconds ≤ gap then monthly
  else if 6 * dayMilliseconds ≤ gap then weekly
  else daily

/-- The cadence of a single instant. -/
def ofSingle (spelledClock : Bool) : Cadence :=
  if spelledClock then subDaily else daily

/-- The gaps between neighbours. -/
def neighbourGaps : List Int → List Int
  | first :: second :: rest => (second - first) :: neighbourGaps (second :: rest)
  | _ => []

end Cadence

/-- Whether a text holds a digit, a colon and two digits in a row. -/
def spellsClock : List Char → Bool
  | hour :: colon :: tens :: ones :: rest =>
    (isDigit hour && colon == ':' && isDigit tens && isDigit ones) ||
      spellsClock (colon :: tens :: ones :: rest)
  | _ => false

/-- Whether a cell that reads as an instant names a time of day other than midnight.  A number
always names one; a text must spell it. -/
def namesClock (cell : Json) (instant : Instant) : Bool :=
  let spelled :=
    match cell with
    | .string text => spellsClock text.toList
    | _ => true
  spelled && decide (instant.clock ≠ { hour := 0, minute := 0, second := 0 })

/-- The sampling of an axis, judged by its first categories. -/
def Sampling.ofCells (cells : List Json) : Sampling :=
  let samples := (cells.take Cadence.sampleCount).filterMap fun cell =>
    (Instant.ofCell? cell).map fun instant => (cell, instant)
  if samples.isEmpty then .untimed
  else
    let moments := (samples.map fun (_, instant) => instant.milliseconds).mergeSort
    let gaps := (Cadence.neighbourGaps moments).filter (0 < ·)
    let single := Cadence.ofSingle (samples.any fun (cell, instant) => namesClock cell instant)
    .ofCadence ((gaps.min?.map Cadence.ofGap).getD single)

end ChartCompiler
