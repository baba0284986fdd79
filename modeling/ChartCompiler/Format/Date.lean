import ChartCompiler.Time.Cadence

/-!
# Labels of dates

The label of an instant leaves out what the cadence of its axis makes redundant.  Tooltips add the
year where the axis leaves it out.  All labels are in universal time.
-/

set_option autoImplicit false

namespace ChartCompiler

/-- The names of the months. -/
def monthNames : List String :=
  ["Jan", "Feb", "Mar", "Apr", "May", "Jun", "Jul", "Aug", "Sep", "Oct", "Nov", "Dec"]

/-- The name of a month, from 1 to 12. -/
def monthName (month : Nat) : String :=
  monthNames.getD (month - 1) ""

/-- Which of the two labels of a category is meant. -/
inductive LabelPlace where
  /-- The label on the axis. -/
  | axis
  /-- The title of the tooltip. -/
  | tooltip
  deriving DecidableEq, Repr

/-- The label of an instant on an axis with a cadence. -/
def dateLabel (instant : Instant) (cadence : Cadence) (place : LabelPlace) : String :=
  let date := instant.date
  let clock := instant.clock
  let month := monthName date.month
  let year := integerText date.year
  let day := naturalText date.day
  let time := paddedText 2 clock.hour ++ ":" ++ paddedText 2 clock.minute
  match cadence, place with
  | .yearly, _ => year
  | .monthly, _ => month ++ " " ++ year
  | .subDaily, .tooltip => month ++ " " ++ day ++ ", " ++ year ++ " " ++ time
  | .subDaily, .axis => month ++ " " ++ day ++ " " ++ time
  | _, .tooltip => month ++ " " ++ day ++ ", " ++ year
  | _, .axis => month ++ " " ++ day

/-- The label of a category: a date on a time axis if its cell reads as an instant, otherwise the
label the category has anyway. -/
def categoryLabel (cell : Json) (fallback : String) (time : Sampling)
    (place : LabelPlace) : String :=
  if time.isTimeSeries then
    match Instant.ofCell? cell with
    | some instant => dateLabel instant time.cadence place
    | none => fallback
  else
    fallback

end ChartCompiler
