import ChartCompiler.Chart.Heatmap
import ChartCompiler.Proofs.Json.Members
import ChartCompiler.Proofs.Pivot.Display

/-!
# The cells of a heatmap

A heatmap lists its cells one by one and names the column and the row of each by position.  The
cells are exactly those of the table that have a value, each once, and their positions are those of
the category and the series on the two axes.
-/

set_option autoImplicit false

namespace ChartCompiler.Heatmap

/-! ## The table behind a heatmap -/

theorem ofRows_eq_some {rows : List Record} {config : Config} {data : Data Float}
    (found : ofRows rows config = some data) :
    ∃ fields, fields? rows config = some fields ∧
      data.pivot = .arranged config.aggregation (rows.filterMap fields.contribution?)
        (shownCategories (rows.filterMap (fields.contribution? (α := Float)))) ∧
      data.columns = (shownCategories (rows.filterMap (fields.contribution? (α := Float)))).map
        (labelOf (rows.filterMap (fields.contribution? (α := Float))) .axis) ∧
      data.columnTitles.length =
        (shownCategories (rows.filterMap (fields.contribution? (α := Float)))).length := by
  rw [ofRows] at found
  obtain ⟨fields, resolved, made⟩ := Option.bind_eq_some_iff.mp found
  refine ⟨fields, resolved, ?_⟩
  simp only [TimedPivot.build_eq_shown, ofTimed, TimedPivot.labels_shown] at made
  split at made
  · cases made
  · obtain ⟨bounds, -, same⟩ := Option.bind_eq_some_iff.mp made
    cases same
    exact ⟨rfl, rfl, List.length_map _⟩

/-! ## Places -/

/-- A cell with a value: its column, its row and the value. -/
structure Place where
  column : Nat
  row : Nat
  value : Float

namespace Place

/-- How a renderer is told of a cell. -/
def toJson (place : Place) : Json :=
  .array [.integer place.column, .integer place.row, .ofFloat place.value]

end Place

/-- The cells with a value, row by row. -/
def places (aggregation : Aggregation) (entries : List (PivotEntry Float))
    (categories : List String) : List Place :=
  (seriesOf entries).zipIdx.flatMap fun (name, row) =>
    categories.zipIdx.filterMap fun (category, column) =>
      (valueAt aggregation entries name category).map fun value => { column, row, value }

section Places

variable {aggregation : Aggregation} {entries : List (PivotEntry Float)} {categories : List String}

theorem mem_places {place : Place} :
    place ∈ places aggregation entries categories ↔
      ∃ name category, (seriesOf entries)[place.row]? = some name ∧
        categories[place.column]? = some category ∧
          valueAt aggregation entries name category = some place.value := by
  simp only [places, List.mem_flatMap, List.mem_filterMap, Prod.exists,
    List.mem_zipIdx_iff_getElem?, Option.map_eq_some_iff]
  constructor
  · rintro ⟨name, row, atRow, category, column, atColumn, value, here, rfl⟩
    exact ⟨name, category, atRow, atColumn, here⟩
  · rintro ⟨name, category, atRow, atColumn, here⟩
    exact ⟨name, place.row, atRow, category, place.column, atColumn, place.value, here, rfl⟩

theorem zipIdx_pairwise_ne {β : Type} (items : List β) :
    items.zipIdx.Pairwise fun first second => first.2 ≠ second.2 := by
  rw [← List.pairwise_map, List.zipIdx_map_snd]
  exact List.nodup_range'

/-- No cell comes up twice. -/
theorem places_pairwise_ne (aggregation : Aggregation) (entries : List (PivotEntry Float))
    (categories : List String) :
    (places aggregation entries categories).Pairwise fun first second =>
      (first.column, first.row) ≠ (second.column, second.row) := by
  rw [places, List.pairwise_flatMap]
  constructor
  · rintro ⟨name, row⟩ -
    refine (zipIdx_pairwise_ne categories).filterMap _ ?_
    rintro ⟨category, column⟩ ⟨other, otherColumn⟩ differ place made place' made' same
    obtain ⟨_, -, rfl⟩ := Option.map_eq_some_iff.mp made
    obtain ⟨_, -, rfl⟩ := Option.map_eq_some_iff.mp made'
    exact differ (Prod.mk.inj same).1
  · refine (zipIdx_pairwise_ne (seriesOf entries)).imp ?_
    rintro ⟨name, row⟩ ⟨other, otherRow⟩ differ place member place' member' same
    obtain ⟨⟨_, _⟩, -, made⟩ := List.mem_filterMap.mp member
    obtain ⟨⟨_, _⟩, -, made'⟩ := List.mem_filterMap.mp member'
    obtain ⟨_, -, rfl⟩ := Option.map_eq_some_iff.mp made
    obtain ⟨_, -, rfl⟩ := Option.map_eq_some_iff.mp made'
    exact differ (Prod.mk.inj same).2

end Places

/-! ## The option -/

/-- The items of a heatmap are the cells of its table. -/
structure Aligned (option : Json) (config : Config) (entries : List (PivotEntry Float))
    (categories : List String) : Prop where
  /-- The categories are those of the entries, each once. -/
  rearranged : categories.Perm (categoriesOf entries)
  /-- The horizontal axis carries the labels of the categories. -/
  columns : option.at? ["xAxis", "data"] =
    some (.strings (categories.map (labelOf entries .axis)))
  /-- The vertical axis carries the series. -/
  rows : option.at? ["yAxis", "data"] = some (.strings (seriesOf entries))
  /-- The items are the cells with a value, each once. -/
  items : ∃ places : List Place,
    (((option.itemsAt "series").headD .null).itemsAt "data").map (·.member? "value") =
        places.map (fun place => some place.toJson) ∧
      (places.Pairwise fun first second =>
        (first.column, first.row) ≠ (second.column, second.row)) ∧
      ∀ place, place ∈ places ↔ ∃ name category,
        (seriesOf entries)[place.row]? = some name ∧
          categories[place.column]? = some category ∧
            valueAt config.aggregation entries name category = some place.value

theorem member?_value_item (writer : TooltipWriter) (place : Place) (title : String) :
    (item writer place.column place.row title place.value).member? "value" =
      some place.toJson := by
  simp [item, Place.toJson]

/-- The items of a row are its cells with a value. -/
theorem map_value_row {β : Type} {cell : β → Option Float} {categories : List β}
    {titles : List String} (titled : titles.length = categories.length) (writer : TooltipWriter)
    (row : Nat) (name : String) :
    ((titles.zip (categories.map cell)).zipIdx.filterMap fun ((column, cell), position) =>
        cell.map fun value =>
          item writer position row (itemTitle column name) value).map (·.member? "value") =
      (categories.zipIdx.filterMap fun (category, column) =>
        (cell category).map fun value => ({ column, row, value } : Place)).map
          fun place => some place.toJson := by
  have untitled : (titles.zip (categories.map cell)).zipIdx.map
      (fun entry => (entry.1.2, entry.2)) = (categories.map cell).zipIdx := by
    have cells : (titles.zip (categories.map cell)).map Prod.snd = categories.map cell :=
      List.map_snd_zip (by simp [titled])
    conv_rhs => rw [← cells, List.zipIdx_map]
    rfl
  calc
    _ = ((titles.zip (categories.map cell)).zipIdx.map fun entry =>
          (entry.1.2, entry.2)).filterMap fun (value, column) =>
            value.map fun value => some ({ column, row, value } : Place).toJson := by
        rw [List.map_filterMap, List.filterMap_map]
        refine List.filterMap_congr fun ((column, cell), position) _ => ?_
        rw [Option.map_map]
        exact Option.map_congr fun value _ =>
          member?_value_item writer { column := position, row, value } _
    _ = _ := by
        rw [untitled, List.zipIdx_map, List.filterMap_map, List.map_filterMap]
        refine List.filterMap_congr fun (category, column) _ => ?_
        rw [Option.map_map]
        rfl

theorem map_value_items {data : Data Float} {aggregation : Aggregation}
    {entries : List (PivotEntry Float)} {categories : List String}
    (table : data.pivot = .arranged aggregation entries categories)
    (titled : data.columnTitles.length = categories.length) (writer : TooltipWriter) :
    (items data writer).map (·.member? "value") =
      (places aggregation entries categories).map fun place => some place.toJson := by
  have rows : data.pivot.series.zip data.pivot.cells = (seriesOf entries).map fun name =>
      (name, categories.map (valueAt aggregation entries name)) := by
    rw [table]
    exact List.map_prod_left_eq_zip.symm
  rw [items, places, rows, List.zipIdx_map, List.flatMap_map, List.map_flatMap, List.map_flatMap]
  exact List.flatMap_congr fun (name, row) _ => map_value_row titled writer row name

theorem aligned_option {data : Data Float} {config : Config}
    {entries : List (PivotEntry Float)}
    (table : data.pivot = .arranged config.aggregation entries (shownCategories entries))
    (labelled : data.columns = (shownCategories entries).map (labelOf entries .axis))
    (titled : data.columnTitles.length = (shownCategories entries).length) (dark : Bool) :
    Aligned (option data config dark) config entries (shownCategories entries) where
  rearranged := shownCategories_perm entries
  columns := by simp [option, around, Json.at?, categoryAxis, labelled]
  rows := by simp [option, around, Json.at?, categoryAxis, table, Pivot.arranged]
  items := by
    refine ⟨places config.aggregation entries (shownCategories entries), ?_,
      places_pairwise_ne _ _ _, fun place => mem_places⟩
    rw [← map_value_items table titled (.forMode (.ofConfig config) dark)]
    simp [option, around, Json.itemsAt, Json.items?]

end ChartCompiler.Heatmap
