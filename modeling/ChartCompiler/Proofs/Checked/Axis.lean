import ChartCompiler.Proofs.Axis.Alignment
import ChartCompiler.Proofs.Checked.Pivot
import ChartCompiler.Proofs.Checked.Scalar

/-!
# Charts with axes with their checks

Bars, lines, areas and radars read the cells of a table series by series and category by category,
and give every series its color.  The table is dense and its titles stand beside its categories
(`AxisTable.Dense`), and there is a color for each series, so every position that is read is one of
an item.
-/

set_option autoImplicit false

namespace ChartCompiler

/-! ## Columns of a table -/

namespace Pivot

variable {α : Type}

def columnChecked (pivot : Pivot α) (category : Nat) : Checked (List α) := do
  let values ← pivot.cells.mapM fun row => Checked.item row category
  return values.filterMap id

theorem columnChecked_eq {pivot : Pivot α} (dense : pivot.Dense) {category : Nat}
    (inside : category < pivot.categories.length) :
    pivot.columnChecked category = pure (pivot.column category) := by
  have values : pivot.cells.mapM (fun row => Checked.item row category) =
      pure (pivot.cells.map fun row => (row[category]?).join) := by
    refine Checked.mapM_eq fun row member => ?_
    have here := dense.column member inside
    rw [Checked.item_of_lt here, List.getElem?_eq_getElem here, Option.join_some]
  rw [columnChecked, values, pure_bind, List.filterMap_map]
  rfl

end Pivot

namespace AxisTable

/-! ## The table behind a chart -/

def ofRowsChecked (rows : List Record) (config : Config) : Checked (Option (AxisTable Float)) :=
  match AxisFields.resolve rows config with
  | none => pure none
  | some fields => do
    let timed ← TimedPivot.buildChecked rows fields.pivotFields config.aggregation
    return ofTimed fields timed

theorem ofRowsChecked_eq (rows : List Record) (config : Config) :
    ofRowsChecked rows config = pure (ofRows rows config) := by
  rw [ofRowsChecked, ofRows]
  cases AxisFields.resolve rows config with
  | none => rfl
  | some fields =>
      show (do let timed ← TimedPivot.buildChecked _ _ _; pure (ofTimed fields timed)) = _
      rw [TimedPivot.buildChecked_eq, pure_bind]
      rfl

/-- A dense table with a label and a title for each category. -/
structure Dense (data : AxisTable Float) : Prop where
  table : data.pivot.Dense
  labels : data.labels.length = data.pivot.categories.length
  titles : data.titles.length = data.pivot.categories.length

theorem dense_ofRows {rows : List Record} {config : Config} {data : AxisTable Float}
    (found : ofRows rows config = some data) : data.Dense := by
  obtain ⟨fields, -, rfl⟩ := ofRows_eq_some found
  exact ⟨Pivot.dense_arranged _ _ _, List.length_map _, List.length_map _⟩

variable {data : AxisTable Float}

/-! ## Ranges -/

def stackEndsChecked (pivot : Pivot Float) : Checked (List Float) := do
  let ends ← (List.range pivot.categories.length).mapM fun category => do
    let (above, below) := stackHeights (← pivot.columnChecked category)
    return [above, below]
  return ends.flatten

theorem stackEndsChecked_eq {pivot : Pivot Float} (dense : pivot.Dense) :
    stackEndsChecked pivot = pure (stackEnds pivot) := by
  rw [stackEndsChecked, stackEnds, List.flatMap_def, Checked.mapM_eq, pure_bind]
  intro category member
  rw [Pivot.columnChecked_eq dense (List.mem_range.mp member), pure_bind]

def valueRangeChecked (data : AxisTable Float) (stacked includeZero : Bool) :
    Checked (Option (Extent Float)) := do
  let values ← if stacked then stackEndsChecked data.pivot else pure data.pivot.values
  return rangeOf values includeZero

theorem valueRangeChecked_eq (dense : data.Dense) (stacked includeZero : Bool) :
    data.valueRangeChecked stacked includeZero = pure (data.valueRange stacked includeZero) := by
  rw [valueRangeChecked, stackEndsChecked_eq dense.table, valueRange]
  cases stacked <;> rfl

/-! ## Tooltips -/

def categoryTooltipsChecked (data : AxisTable Float) (colors : List String)
    (formatter : ValueFormatter) (stacked dark : Bool) : Checked (List String) :=
  data.titles.zipIdx.mapM fun (title, category) => do
    let entries ← data.pivot.series.zipIdx.mapM fun (name, series) => do
      let row ← Checked.item data.pivot.cells series
      let value ← Checked.item row category
      return { label := name, color := colors[series]?, value }
    return (data.tooltipWriter formatter stacked dark).category title entries

theorem categoryTooltipsChecked_eq (dense : data.Dense) (colors : List String)
    (formatter : ValueFormatter) (stacked dark : Bool) :
    data.categoryTooltipsChecked colors formatter stacked dark =
      pure (data.categoryTooltips colors formatter stacked dark) := by
  refine Checked.mapM_ext _ (by simp [categoryTooltips]) fun category here here' => ?_
  have inside : category < data.pivot.categories.length := by
    rwa [List.length_zipIdx, dense.titles] at here
  simp only [categoryTooltips, List.getElem_zipIdx, List.getElem_map, Nat.zero_add]
  rw [Checked.mapM_ext ((data.pivot.series.zip data.pivot.cells).zipIdx.map
    fun entry =>
      { label := entry.1.1
        color := colors[entry.2]?
        value := (entry.1.2[category]?).join }), pure_bind]
  · simp [dense.table.rows]
  · intro series there there'
    have row : series < data.pivot.cells.length := by simpa [dense.table.rows] using there
    have column := dense.table.column (List.getElem_mem row) inside
    simp only [List.getElem_zipIdx, List.getElem_map, List.getElem_zip, Nat.zero_add,
      Checked.item_of_lt row, Checked.item_of_lt column, pure_bind,
      List.getElem?_eq_getElem column, Option.join_some]

end AxisTable

/-! ## Frames -/

def PlotFrame.toOptionChecked (frame : PlotFrame) (data : AxisTable Float) (config : Config)
    (dark : Bool) : Checked Json := do
  let formatter := ValueFormatter.ofConfig config
  let tooltips ← data.categoryTooltipsChecked frame.colors formatter config.stacked dark
  return frame.around tooltips data config dark

variable {data : AxisTable Float}

theorem PlotFrame.toOptionChecked_eq (dense : data.Dense) (frame : PlotFrame) (config : Config)
    (dark : Bool) :
    frame.toOptionChecked data config dark = pure (frame.toOption data config dark) := by
  simp only [toOptionChecked, AxisTable.categoryTooltipsChecked_eq dense, pure_bind]
  rfl

/-! ## Series -/

namespace AxisTable

/-- An option for each series, made of its name, its cells, its color and its position. -/
def seriesChecked (data : AxisTable Float) (colors : List String)
    (made : String → List (Option Float) → String → Nat → Json) : Checked (List Json) :=
  data.pivot.series.zipIdx.mapM fun (name, index) => do
    let cells ← Checked.item data.pivot.cells index
    let color ← Checked.item colors index
    return made name cells color index

/-- There are cells and a color for each series. -/
theorem seriesChecked_eq (dense : data.Dense) {colors : List String}
    (colored : colors.length = data.pivot.series.length)
    (made : String → List (Option Float) → String → Nat → Json) :
    data.seriesChecked colors made =
      pure (((data.pivot.series.zip data.pivot.cells).zip colors).zipIdx.map
        fun (((name, cells), color), index) => made name cells color index) := by
  refine Checked.mapM_ext _ (by simp [dense.table.rows, colored]) fun index here here' => ?_
  have inside : index < data.pivot.series.length := by simpa using here
  have row : index < data.pivot.cells.length := dense.table.rows ▸ inside
  have color : index < colors.length := colored ▸ inside
  simp only [List.getElem_zipIdx, List.getElem_map, List.getElem_zip, Nat.zero_add,
    Checked.item_of_lt row, Checked.item_of_lt color, pure_bind]

theorem seriesChecked_eq_map (dense : data.Dense) {colors : List String}
    (colored : colors.length = data.pivot.series.length)
    (made : String → List (Option Float) → String → Json) :
    (data.seriesChecked colors fun name cells color _ => made name cells color) =
      pure (((data.pivot.series.zip data.pivot.cells).zip colors).map
        fun ((name, cells), color) => made name cells color) := by
  rw [seriesChecked_eq dense colored]
  refine congrArg pure ?_
  conv_rhs => rw [← List.zipIdx_map_fst 0 (List.zip _ colors), List.map_map]
  rfl

end AxisTable

namespace Bar

def optionChecked (data : AxisTable Float) (config : Config) (dark : Bool) : Checked Json := do
  let count := data.pivot.series.length
  let colors ← config.seriesColorsChecked count dark
  let series ← data.seriesChecked colors fun name cells color index =>
    series config name color cells (decide (index + 1 = count))
  let range ← data.valueRangeChecked config.stacked true
  (frame colors series range config dark).toOptionChecked data config dark

theorem optionChecked_eq (dense : data.Dense) (config : Config) (dark : Bool) :
    optionChecked data config dark = pure (option data config dark) := by
  simp only [optionChecked, Config.seriesColorsChecked_eq, pure_bind,
    AxisTable.seriesChecked_eq dense (length_seriesColors config _ dark),
    AxisTable.valueRangeChecked_eq dense, PlotFrame.toOptionChecked_eq dense]
  rfl

end Bar

namespace Line

def optionChecked (area : Bool) (data : AxisTable Float) (config : Config) (dark : Bool) :
    Checked Json := do
  let colors ← config.seriesColorsChecked data.pivot.series.length dark
  let showSymbol := decide (data.pivot.categories.length ≤ markedPointLimit)
  let series ← data.seriesChecked colors fun name cells color _ =>
    series area config name color cells showSymbol
  let range ← data.valueRangeChecked config.stacked area
  (frame colors series range config dark).toOptionChecked data config dark

theorem optionChecked_eq (dense : data.Dense) (area : Bool) (config : Config) (dark : Bool) :
    optionChecked area data config dark = pure (option area data config dark) := by
  simp only [optionChecked, Config.seriesColorsChecked_eq, pure_bind,
    AxisTable.seriesChecked_eq_map dense (length_seriesColors config _ dark),
    AxisTable.valueRangeChecked_eq dense, PlotFrame.toOptionChecked_eq dense]
  rfl

end Line

namespace Radar

def spokeEndChecked (data : AxisTable Float) (category : Nat) : Checked Float := do
  return spokeBeyond (← data.pivot.columnChecked category)

def optionChecked (data : AxisTable Float) (config : Config) (dark : Bool) : Checked Json := do
  let writer := TooltipWriter.forMode (ValueFormatter.ofConfig config) dark
  let colors ← config.seriesColorsChecked data.pivot.series.length dark
  let indicators ← data.labels.zipIdx.mapM fun (name, category) => do
    return indicator name (← spokeEndChecked data category)
  let items ← data.seriesChecked colors fun name cells color _ => item data writer name color cells
  return around indicators items data colors config dark

theorem optionChecked_eq (dense : data.Dense) (config : Config) (dark : Bool) :
    optionChecked data config dark = pure (option data config dark) := by
  have indicators : (data.labels.zipIdx.mapM fun (name, category) => do
      return indicator name (← spokeEndChecked data category)) =
      (pure (data.labels.zipIdx.map fun (name, category) =>
        indicator name (spokeEnd data category)) : Checked _) := by
    refine Checked.mapM_ext _ (by simp) fun category here here' => ?_
    have inside : category < data.pivot.categories.length := by
      rwa [List.length_zipIdx, dense.labels] at here
    simp only [List.getElem_zipIdx, List.getElem_map, Nat.zero_add, spokeEndChecked,
      Pivot.columnChecked_eq dense.table inside, pure_bind, spokeEnd]
  simp only [optionChecked, Config.seriesColorsChecked_eq, pure_bind, indicators,
    AxisTable.seriesChecked_eq_map dense (length_seriesColors config _ dark)]
  rfl

end Radar

end ChartCompiler
