import ChartCompiler.Chart.Bar
import ChartCompiler.Chart.Line
import ChartCompiler.Chart.Radar
import ChartCompiler.Proofs.Json.Members
import ChartCompiler.Proofs.Pivot.Display

/-!
# Charts with axes are aligned

The labels of a category axis, the contents of the tooltips and the data of every series are
separate arrays, and a renderer matches them by position.  Here they are shown to be images of one
list of categories, so that what stands at a position is about one category in all of them.
-/

set_option autoImplicit false

namespace ChartCompiler

/-! ## The table behind a chart -/

namespace AxisTable

/-- The table of some entries in display order. -/
def shown (fields : AxisFields) (aggregation : Aggregation) (entries : List (PivotEntry Float)) :
    AxisTable Float :=
  { fields
    pivot := .arranged aggregation entries (shownCategories entries)
    time := samplingOf entries
    labels := (shownCategories entries).map (labelOf entries .axis)
    titles := (shownCategories entries).map (labelOf entries .tooltip) }

theorem ofRows_eq_some {rows : List Record} {config : Config} {data : AxisTable Float}
    (found : ofRows rows config = some data) :
    ∃ fields, AxisFields.resolve rows config = some fields ∧
      data = shown fields config.aggregation
        (rows.filterMap fields.pivotFields.contribution?) := by
  rw [ofRows] at found
  obtain ⟨fields, resolved, made⟩ := Option.bind_eq_some_iff.mp found
  refine ⟨fields, resolved, ?_⟩
  simp only [ofTimed, TimedPivot.build_eq_shown, TimedPivot.labels_shown] at made
  split at made
  · cases made
  · exact (Option.some.inj made).symm

/-! ## Points and tooltips -/

/-- The option of a point; a gap is a missing value. -/
def point (formatter : ValueFormatter) (showLabels : Bool) : Option Float → Json
  | none => .null
  | some value =>
    if showLabels then
      .record [("value", .ofFloat value), ("label", formatted (formatter.axis value))]
    else .ofFloat value

theorem points_eq_map (formatter : ValueFormatter) (cells : List (Option Float)) :
    points cells = cells.map (point formatter false) :=
  List.map_congr_left fun cell _ => by cases cell <;> rfl

theorem labelledPoints_eq_map (cells : List (Option Float)) (formatter : ValueFormatter)
    (showLabels : Bool) :
    labelledPoints cells formatter showLabels = cells.map (point formatter showLabels) := by
  cases showLabels with
  | false => exact points_eq_map formatter cells
  | true => exact List.map_congr_left fun cell _ => by cases cell <;> rfl

section Contents

variable (aggregation : Aggregation) (entries : List (PivotEntry Float))

/-- The tooltip of a category: its title, and a line for the value of each series. -/
def contentOf (writer : TooltipWriter) (colors : List String) (category : String) : String :=
  writer.category (labelOf entries .tooltip category)
    ((seriesOf entries).zipIdx.map fun (name, position) =>
      { label := name
        color := colors[position]?
        value := valueAt aggregation entries name category })

theorem zip_series_cells (categories : List String) :
    (seriesOf entries).zip (Pivot.arranged aggregation entries categories).cells =
      (seriesOf entries).map fun name =>
        (name, categories.map (valueAt aggregation entries name)) := by
  exact List.map_prod_left_eq_zip.symm

/-- The tooltips stand in the order of the categories. -/
theorem categoryTooltips_shown (fields : AxisFields) (colors : List String)
    (formatter : ValueFormatter) (stacked dark : Bool) :
    ∃ writer : TooltipWriter,
      (shown fields aggregation entries).categoryTooltips colors formatter stacked dark =
        (shownCategories entries).map (contentOf aggregation entries writer colors) := by
  refine ⟨{ TooltipWriter.forMode formatter dark with
    sortsEntries := stacked && decide (1 < (seriesOf entries).length)
    addsTotal := stacked && decide (1 < (seriesOf entries).length) }, ?_⟩
  have lines {position : Nat} {category : String}
      (here : (shownCategories entries)[position]? = some category) :
      ((seriesOf entries).zip
          (Pivot.arranged aggregation entries (shownCategories entries)).cells).zipIdx.map
        (fun entry => ({
          label := entry.1.1
          color := colors[entry.2]?
          value := (entry.1.2[position]?).join } : TooltipEntry)) =
        (seriesOf entries).zipIdx.map fun entry =>
          { label := entry.1
            color := colors[entry.2]?
            value := valueAt aggregation entries entry.1 category } := by
    rw [zip_series_cells, List.zipIdx_map, List.map_map]
    refine List.map_congr_left fun entry _ => ?_
    simp only [Function.comp_apply, Prod.map_fst, Prod.map_snd, id_eq, List.getElem?_map, here,
      Option.map_some, Option.join_some]
  refine List.ext_getElem (by simp [categoryTooltips, shown]) fun position here here' => ?_
  simp only [categoryTooltips, shown, List.getElem_map, List.getElem_zipIdx, contentOf,
    Nat.zero_add]
  exact congrArg (TooltipWriter.category _ _)
    (lines (List.getElem?_eq_getElem (by simpa using here')))

end Contents

end AxisTable

/-! ## Frames -/

theorem length_seriesColors (config : Config) (count : Nat) (dark : Bool) :
    (config.seriesColors count dark).length = count := by
  rw [Config.seriesColors, chooseColors, List.length_map, List.length_range]

namespace Legend

theorem textAt?_name_swatch (label color : String) :
    (LegendEntry.swatch label color).toJson.textAt? "name" = some label := by
  simp [LegendEntry.toJson, LegendEntry.swatch, Json.textAt?, Json.string?]

/-- A legend lists its entries. -/
theorem itemsAt_data_toJson (legend : Legend) (dark : Bool) :
    (legend.toJson dark).itemsAt "data" = legend.entries.map LegendEntry.toJson := by
  rw [toJson, Json.itemsAt]
  cases legend.side <;> cases legend.isScrolled <;> simp [Json.items?]

/-- A legend of swatches lists their names. -/
theorem map_name_swatches {names colors : List String} (colored : names.length ≤ colors.length) :
    ((List.zipWith LegendEntry.swatch names colors).map LegendEntry.toJson).map
        (·.textAt? "name") = names.map some := by
  rw [List.map_map]
  refine List.ext_getElem (by simpa using colored) fun position here here' => ?_
  simp [textAt?_name_swatch]

/-- With two series or more there is an entry for each. -/
theorem itemsAt_data_ofSeries {names colors : List String} (several : 2 ≤ names.length)
    (colored : colors.length = names.length) (dark : Bool) :
    (((ofSeries names colors).toJson dark).itemsAt "data").map (·.textAt? "name") =
      names.map some := by
  rw [itemsAt_data_toJson, ofSeries, if_neg (by omega)]
  exact map_name_swatches colored.ge

end Legend

/-- The arrays of an option are about some categories, position by position, and about the series
of some entries. -/
structure Aligned (option : Json) (axis : String) (config : Config)
    (entries : List (PivotEntry Float)) (categories colors : List String) : Prop where
  /-- The categories are those of the entries, each once. -/
  rearranged : categories.Perm (categoriesOf entries)
  /-- The axis carries the labels of the categories. -/
  labels : option.at? [axis, "data"] =
    some (.strings (categories.map (labelOf entries .axis)))
  /-- The tooltips carry the titles and the values of the categories. -/
  contents : ∃ writer : TooltipWriter, option.at? ["tooltip", "axisContent"] =
    some (.strings (categories.map
      (AxisTable.contentOf config.aggregation entries writer colors)))
  /-- A series carries its values at the categories. -/
  points : ∃ formatter : ValueFormatter,
    (option.itemsAt "series").map (fun series => (series.textAt? "name", series.member? "data")) =
      (seriesOf entries).map fun name =>
        (some name, some (.array (categories.map fun category =>
          AxisTable.point formatter config.showLabels
            (valueAt config.aggregation entries name category))))
  /-- The colors are given to the renderer. -/
  palette : option.member? "color" = some (.strings colors)
  /-- There is a color for each series. -/
  colored : colors.length = (seriesOf entries).length
  /-- With two series or more there is an entry of the legend for each. -/
  legend : 2 ≤ (seriesOf entries).length →
    ((option.member? "legend").elim [] (·.itemsAt "data")).map (·.textAt? "name") =
      (seriesOf entries).map some

/-- A frame is aligned when its series are. -/
theorem PlotFrame.aligned {frame : PlotFrame} {config : Config}
    {entries : List (PivotEntry Float)} (fields : AxisFields) (dark : Bool)
    (colored : frame.colors.length = (seriesOf entries).length)
    (points : ∃ formatter : ValueFormatter,
      frame.series.map (fun series => (series.textAt? "name", series.member? "data")) =
        (seriesOf entries).map fun name =>
          (some name, some (.array ((shownCategories entries).map fun category =>
            AxisTable.point formatter config.showLabels
              (valueAt config.aggregation entries name category))))) :
    Aligned (frame.toOption (AxisTable.shown fields config.aggregation entries) config dark)
      (if frame.horizontal then "yAxis" else "xAxis") config entries (shownCategories entries)
      frame.colors where
  rearranged := shownCategories_perm entries
  labels := by
    cases horizontal : frame.horizontal <;>
      simp [toOption, around, horizontal, categoryAxis, Json.at?, AxisTable.shown]
  contents := by
    obtain ⟨writer, contents⟩ := AxisTable.categoryTooltips_shown config.aggregation entries fields
      frame.colors (ValueFormatter.ofConfig config) config.stacked dark
    refine ⟨writer, ?_⟩
    rw [← contents]
    simp [toOption, around, axisTooltip, Json.at?]
  points := by
    obtain ⟨formatter, points⟩ := points
    refine ⟨formatter, ?_⟩
    rw [← points]
    simp [toOption, around, Json.itemsAt, Json.items?]
  palette := by simp [toOption, around]
  colored := colored
  legend several := by
    have legend := Legend.itemsAt_data_ofSeries several colored dark
    rw [← legend]
    simp [toOption, around, AxisTable.shown, Pivot.arranged]

/-! ## Bars, lines and areas -/

section Charts

variable (config : Config) (entries : List (PivotEntry Float)) (fields : AxisFields)

theorem Bar.members_series (name color : String) (cells : List (Option Float)) (outermost : Bool) :
    (series config name color cells outermost).textAt? "name" = some name ∧
      (series config name color cells outermost).member? "data" =
        some (.array (cells.map
          (AxisTable.point (ValueFormatter.ofConfig config) config.showLabels))) := by
  rw [← AxisTable.labelledPoints_eq_map, series, Json.textAt?,
    Json.member?_setIf_of_ne (by decide), Json.member?_setIf_of_ne (by decide)]
  simp [Json.string?]

theorem Line.members_series (area : Bool) (name color : String) (cells : List (Option Float))
    (showSymbol : Bool) :
    (series area config name color cells showSymbol).textAt? "name" = some name ∧
      (series area config name color cells showSymbol).member? "data" =
        some (.array (cells.map
          (AxisTable.point (ValueFormatter.ofConfig config) config.showLabels))) := by
  rw [← AxisTable.labelledPoints_eq_map, series, Json.textAt?,
    Json.member?_setIf_of_ne (by decide), Json.member?_setIf_of_ne (by decide),
    Json.member?_setIf_of_ne (by decide), Json.member?_setIf_of_ne (by decide)]
  simp [Json.string?]

theorem Bar.aligned_option (dark : Bool) :
    ∃ colors, Aligned (option (AxisTable.shown fields config.aggregation entries) config dark)
      (if config.horizontal then "yAxis" else "xAxis") config entries (shownCategories entries)
        colors := by
  refine ⟨_, PlotFrame.aligned fields dark (length_seriesColors config _ dark) ?_⟩
  refine ⟨ValueFormatter.ofConfig config, ?_⟩
  refine List.ext_getElem ?_ fun position here here' => ?_
  · simp [Bar.frame, AxisTable.shown, Pivot.arranged, length_seriesColors]
  · simp [Bar.frame, AxisTable.shown, Pivot.arranged, Bar.members_series, Function.comp_def]

theorem Line.aligned_option (area dark : Bool) :
    ∃ colors, Aligned (option area (AxisTable.shown fields config.aggregation entries) config dark)
      "xAxis" config entries (shownCategories entries) colors := by
  refine ⟨_, PlotFrame.aligned fields dark (length_seriesColors config _ dark) ?_⟩
  refine ⟨ValueFormatter.ofConfig config, ?_⟩
  refine List.ext_getElem ?_ fun position here here' => ?_
  · simp [Line.frame, AxisTable.shown, Pivot.arranged, length_seriesColors]
  · simp [Line.frame, AxisTable.shown, Pivot.arranged, Line.members_series, Function.comp_def]

/-! ## Radars -/

/-- The axes of a radar and the values of its polygons are about some categories, position by
position. -/
structure RadarAligned (option : Json) (config : Config) (entries : List (PivotEntry Float))
    (categories : List String) : Prop where
  /-- The categories are those of the entries, each once. -/
  rearranged : categories.Perm (categoriesOf entries)
  /-- The axes carry the labels of the categories. -/
  indicators : ((option.member? "radar").elim [] (·.itemsAt "indicator")).map (·.textAt? "name") =
    categories.map fun category => some (labelOf entries .axis category)
  /-- There is a polygon for each series, with a value for each category. -/
  values : ∃ formatter : ValueFormatter,
    (((option.itemsAt "series").headD .null).itemsAt "data").map
        (fun item => (item.textAt? "name", item.member? "value")) =
      (seriesOf entries).map fun name =>
        (some name, some (.array (categories.map fun category =>
          AxisTable.point formatter false (valueAt config.aggregation entries name category))))

theorem Radar.aligned_option (dark : Bool) :
    RadarAligned (option (AxisTable.shown fields config.aggregation entries) config dark) config
      entries (shownCategories entries) where
  rearranged := shownCategories_perm entries
  indicators := by
    refine List.ext_getElem ?_ fun position here here' => ?_
    · simp [option, around, AxisTable.shown, Json.itemsAt, Json.items?]
    · simp [option, around, AxisTable.shown, indicator, Json.itemsAt, Json.items?,
        Json.textAt?, Json.string?]
  values := by
    refine ⟨ValueFormatter.ofConfig config, ?_⟩
    have polygon (data : AxisTable Float) (writer : TooltipWriter) (name color : String)
        (cells : List (Option Float)) :
        (item data writer name color cells).textAt? "name" = some name ∧
          (item data writer name color cells).member? "value" = some (.array
            (cells.map (AxisTable.point (ValueFormatter.ofConfig config) false))) := by
      rw [← AxisTable.points_eq_map]
      simp [item, Json.textAt?, Json.string?]
    refine List.ext_getElem ?_ fun position here here' => ?_
    · simp [option, around, AxisTable.shown, Pivot.arranged, Json.itemsAt, Json.items?,
        length_seriesColors]
    · simp [option, around, AxisTable.shown, Pivot.arranged, Json.itemsAt, Json.items?, polygon,
        Function.comp_def]

end Charts

end ChartCompiler
