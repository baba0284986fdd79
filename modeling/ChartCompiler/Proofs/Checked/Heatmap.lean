import ChartCompiler.Chart.Heatmap
import ChartCompiler.Proofs.Chart.Heatmap
import ChartCompiler.Proofs.Checked.Pivot
import ChartCompiler.Proofs.Checked.Scalar

/-!
# Heatmaps with their checks

The items of a heatmap are read row by row, and the title of each names its column and its row.  The
table has a row of cells for each of its rows, and every row has a cell for each of the titles.
-/

set_option autoImplicit false

namespace ChartCompiler.Heatmap

/-! ## The color scale -/

def scaleBoundsChecked (values : List Float) (center : Option Float) (usePercentiles : Bool)
    (lower upper : Float) : Checked (Option (Extent Float)) :=
  match Extent.of values with
  | none => pure none
  | some extent =>
    match center.filter Quantity.isFinite with
    | some center => pure (some (extent.centeredOn center))
    | none =>
      if usePercentiles && usableBounds lower upper then percentileBoundsChecked values lower upper
      else pure (some extent)

theorem scaleBoundsChecked_eq (values : List Float) (center : Option Float)
    (usePercentiles : Bool) (lower upper : Float) :
    scaleBoundsChecked values center usePercentiles lower upper =
      pure (scaleBounds values center usePercentiles lower upper) := by
  rw [scaleBoundsChecked, scaleBounds]
  cases Extent.of values with
  | none => rfl
  | some extent =>
      simp only [percentileBoundsChecked_eq]
      cases center.filter Quantity.isFinite with
      | some center => rfl
      | none =>
          show (if _ then _ else _) = pure (if _ then _ else _)
          split <;> rfl

/-! ## The table -/

def ofRowsChecked (rows : List Record) (config : Config) : Checked (Option (Data Float)) :=
  match fields? rows config with
  | none => pure none
  | some fields => do
    let timed ← TimedPivot.buildChecked rows fields config.aggregation
    let options := config.heatmap
    if timed.pivot.isEmpty then return none
    else
      let bounds ← scaleBoundsChecked timed.pivot.values options.visualMapCenter
        options.usePercentileBounds options.lowerPercentile options.upperPercentile
      return bounds.map fun bounds => ofTimed timed bounds config

theorem ofRowsChecked_eq (rows : List Record) (config : Config) :
    ofRowsChecked rows config = pure (ofRows rows config) := by
  rw [ofRowsChecked, ofRows]
  cases fields? rows config with
  | none => rfl
  | some fields =>
      have center : config.heatmap.visualMapCenter.map (Quantity.ofFloat : Float → Float) =
          config.heatmap.visualMapCenter := congrFun Option.map_id _
      simp only [TimedPivot.buildChecked_eq, scaleBoundsChecked_eq, pure_bind, center,
        Option.map_eq_bind]
      show (if _ then _ else _) = pure (if _ then _ else _)
      split <;> rfl

/-- A dense table with a title for each column. -/
structure Data.Dense (data : Data Float) : Prop where
  table : data.pivot.Dense
  titles : data.columnTitles.length = data.pivot.categories.length

theorem dense_ofRows {rows : List Record} {config : Config} {data : Data Float}
    (found : ofRows rows config = some data) : data.Dense := by
  obtain ⟨fields, -, table, -, titles⟩ := ofRows_eq_some found
  refine ⟨table ▸ Pivot.dense_arranged _ _ _, ?_⟩
  rw [titles, table]
  rfl

/-! ## The items -/

def itemsChecked (data : Data Float) (writer : TooltipWriter) : Checked (List Json) := do
  let rows ← data.pivot.cells.zipIdx.mapM fun (cells, row) => do
    let items ← cells.zipIdx.mapM fun (cell, position) =>
      match cell with
      | none => pure none
      | some value => do
        let title := itemTitle (← Checked.item data.columnTitles position)
          (← Checked.item data.pivot.series row)
        return some (item writer position row title value)
    return items.filterMap id
  return rows.flatten

theorem itemsChecked_eq {data : Data Float} (dense : data.Dense) (writer : TooltipWriter) :
    itemsChecked data writer = pure (items data writer) := by
  rw [itemsChecked, items, List.flatMap_def, Checked.mapM_ext
    ((data.pivot.series.zip data.pivot.cells).zipIdx.map fun entry =>
      (data.columnTitles.zip entry.1.2).zipIdx.filterMap fun place => place.1.2.map fun value =>
        item writer place.2 entry.2 (itemTitle place.1.1 entry.1.1) value), pure_bind]
  · simp [dense.table.rows]
  intro row here here'
  have known : row < data.pivot.series.length := by simpa [dense.table.rows] using here
  have inside : row < data.pivot.cells.length := by simpa using here
  have count := dense.table.columns data.pivot.cells[row] (List.getElem_mem inside)
  simp only [List.getElem_zipIdx, List.getElem_map, List.getElem_zip, Nat.zero_add]
  rw [Checked.mapM_ext ((data.columnTitles.zip data.pivot.cells[row]).zipIdx.map
    fun place => place.1.2.map fun value =>
      item writer place.2 row (itemTitle place.1.1 data.pivot.series[row]) value), pure_bind,
    List.filterMap_map]
  · rfl
  · simp [dense.titles, count]
  intro position there there'
  have titled : position < data.columnTitles.length := by
    rw [dense.titles, ← count]
    simpa using there
  simp only [List.getElem_zipIdx, List.getElem_map, List.getElem_zip, Nat.zero_add,
    Checked.item_of_lt titled, Checked.item_of_lt known, pure_bind]
  split <;> simp [*]

def optionChecked (data : Data Float) (config : Config) (dark : Bool) : Checked Json := do
  let items ← itemsChecked data (.forMode (.ofConfig config) dark)
  return around items data config dark

theorem optionChecked_eq {data : Data Float} (dense : data.Dense) (config : Config)
    (dark : Bool) : optionChecked data config dark = pure (option data config dark) := by
  rw [optionChecked, itemsChecked_eq dense, pure_bind]
  rfl

end ChartCompiler.Heatmap
