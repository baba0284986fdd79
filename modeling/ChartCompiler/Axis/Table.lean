import ChartCompiler.Axis.Fields
import ChartCompiler.Format.Date
import ChartCompiler.Notice
import ChartCompiler.Pivot.Chronology
import ChartCompiler.Statistics.Extent

/-!
# The data of charts with axes

Bars, lines, areas and radars show the same data: a pivot whose categories are labelled, and put in
order of time when they form a time series.  The extent of a chart with stacked series is that of
its stacks, where positive and negative values are stacked separately.
-/

set_option autoImplicit false

namespace ChartCompiler

/-- The labels of some categories. -/
def categoryLabels (names : List String) (cells : List Json) (time : Sampling)
    (place : LabelPlace) : List String :=
  List.zipWith (fun cell name => categoryLabel cell name time place) cells names

/-- A pivot in display order, with the sampling of its categories. -/
structure TimedPivot (α : Type) where
  /-- The table. -/
  pivot : Pivot α
  /-- The sampling of its categories. -/
  time : Sampling

namespace TimedPivot

variable {α : Type} [Quantity α]

/-- Groups rows and puts a time series in order of time. -/
def build (rows : List Record) (fields : PivotFields) (aggregation : Aggregation) : TimedPivot α :=
  let pivot := Pivot.build rows fields aggregation
  let time := Sampling.ofCells pivot.categoryCells
  { pivot := if time.isTimeSeries then pivot.chronological else pivot, time }

/-- The labels of the categories. -/
def labels (timed : TimedPivot α) (place : LabelPlace) : List String :=
  categoryLabels timed.pivot.categories timed.pivot.categoryCells timed.time place

end TimedPivot

/-- The notice about rows that a pivot leaves out. -/
def Pivot.notices (rows : List Record) (fields : PivotFields) : List Notice :=
  let skipped := Pivot.skippedRows rows fields
  if skipped = 0 then []
  else
    [.trace ("pivot skipped " ++ naturalText skipped ++ " rows without category/series labels")]

/-- What a chart with axes shows. -/
structure AxisTable (α : Type) where
  /-- The fields that were read. -/
  fields : AxisFields
  /-- The table of categories and series. -/
  pivot : Pivot α
  /-- The sampling of the categories. -/
  time : Sampling
  /-- The labels on the axis, one for each category. -/
  labels : List String
  /-- The titles of the tooltips, one for each category. -/
  titles : List String

namespace AxisFields

/-- The fields of the pivot of a chart with axes. -/
def pivotFields (fields : AxisFields) : PivotFields :=
  { category := fields.category, value := fields.value, series := fields.series }

end AxisFields

namespace AxisTable

variable {α : Type} [Quantity α]

/-- The data of a pivot in display order, if there is anything in it. -/
def ofTimed (fields : AxisFields) (timed : TimedPivot α) : Option (AxisTable α) :=
  if timed.pivot.isEmpty then none
  else
    some
      { fields
        pivot := timed.pivot
        time := timed.time
        labels := timed.labels .axis
        titles := timed.labels .tooltip }

/-- The data of some records, if any of them can be shown. -/
def ofRows (rows : List Record) (config : Config) : Option (AxisTable α) := do
  let fields ← AxisFields.resolve rows config
  ofTimed fields (TimedPivot.build rows fields.pivotFields config.aggregation)

/-- The notices of `ofRows`. -/
def notices (rows : List Record) (config : Config) : List Notice :=
  match AxisFields.resolve rows config with
  | none => []
  | some fields =>
    let skipped := Pivot.notices rows fields.pivotFields
    match (ofRows rows config : Option (AxisTable Float)) with
    | none => skipped
    | some data =>
      skipped ++
        [.trace
          ("pivoted " ++ naturalText rows.length ++ " rows into " ++
            naturalText data.pivot.categories.length ++ " categories x " ++
            naturalText data.pivot.series.length ++ " series (" ++ data.time.cadence.name ++ ")")]

/-- The heights of the two stacks of some values: the sum of those that are not negative, and the
sum of the others. -/
def stackHeights (values : List α) : α × α :=
  values.foldl
    (fun (above, below) value =>
      if Quantity.zero ≤ value then (above + value, below) else (above, below + value))
    (Quantity.zero, Quantity.zero)

/-- The heights of the stacks of all categories. -/
def stackEnds (pivot : Pivot α) : List α :=
  (List.range pivot.categories.length).flatMap fun category =>
    let (above, below) := stackHeights (pivot.column category)
    [above, below]

/-- The range that holds some values, and zero if it is asked for. -/
def rangeOf (values : List α) (includeZero : Bool) : Option (Extent α) :=
  if includeZero then (Extent.of values).map Extent.withZero else Extent.of values

/-- The range that the value axis has to cover. -/
def valueRange (data : AxisTable α) (stacked includeZero : Bool) : Option (Extent α) :=
  rangeOf (if stacked then stackEnds data.pivot else data.pivot.values) includeZero

end AxisTable

end ChartCompiler
