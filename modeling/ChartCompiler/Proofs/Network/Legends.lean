import ChartCompiler.Proofs.Compile.Alignment
import ChartCompiler.Proofs.Network.Identity
import Mathlib.Data.List.Forall2
import Mathlib.Data.List.Sort
import Mathlib.Data.String.Basic

/-!
# The legends of a network

A network is shown with two legends.  The categories of its nodes are listed in the order in which
they first come up, and the styles of its edges in ascending order.  Names are given colors in one
place and looked up by nodes, links, legend entries and series in others.

Here all of them are shown to agree (`legends_hold`), however many names there are.  The styles are
determined by which of them come up (`styles_eq_of_same`), so neither the order of the edges nor
their number makes a difference to the color and the pattern of a style.
-/

set_option autoImplicit false

namespace ChartCompiler.Network

/-! ## What is shown -/

/-- The legends of a chart: that of the categories, and that of the styles if there are any. -/
def emittedLegends (chart : CompiledChart) : List Json :=
  match chart.option.member? "legend" with
  | some (.array legends) => legends
  | some legend => [legend]
  | none => []

/-- The entries of the legend of the categories. -/
def categoryEntries (chart : CompiledChart) : List Json :=
  ((emittedLegends chart).headD .null).itemsAt "data"

/-- The entries of the legend of the styles. -/
def styleEntries (chart : CompiledChart) : List Json :=
  ((emittedLegends chart).getD 1 .null).itemsAt "data"

/-- The series that follow the one that shows the graph. -/
def carriers (chart : CompiledChart) : List Json :=
  (chart.option.itemsAt "series").tail

/-- Whether something is filled with a color. -/
def IsFilled (color : String) (value : Json) : Prop :=
  value.at? ["itemStyle", "color"] = some (.string color)

/-- Whether something is drawn as a line with the color and the pattern of a style. -/
def IsStroked (style : EdgeStyle) (value : Json) : Prop :=
  value.at? ["lineStyle", "color"] = some (.string style.color) ∧
    value.at? ["lineStyle", "type"] = some (.string style.pattern.name)

/-- Whether something stands for a style: it has its name, its color and its pattern. -/
def StandsFor (style : EdgeStyle) (value : Json) : Prop :=
  value.textAt? "name" = some style.name ∧ IsFilled style.color value ∧ IsStroked style value

/-- The colors and patterns of the styles of a graph. -/
def stylesOf (graph : Graph Float) (config : Config) (dark : Bool) : List EdgeStyle :=
  assignStyles graph.styles config.network.edgeStyleColors (config.themeColors dark)

/-! ## Categories and styles of a graph -/

section Graph

variable {α : Type} (graph : Graph α)

theorem mem_categories {category : String} :
    category ∈ graph.categories ↔ ∃ node ∈ graph.nodes, node.category = some category := by
  rw [Graph.categories, mem_distinct, List.mem_filterMap]

theorem mem_styles {style : String} :
    style ∈ graph.styles ↔ ∃ edge ∈ graph.edges, edge.style = some style := by
  rw [Graph.styles, List.mem_mergeSort, mem_distinct, List.mem_filterMap]

/-- The styles are in ascending order, each once. -/
theorem pairwise_styles : graph.styles.Pairwise (· < ·) := by
  have sorted : graph.styles.Pairwise (· ≤ ·) := by
    have pairs : graph.styles.Pairwise fun left right => decide (left ≤ right) = true :=
      List.pairwise_mergeSort (by simpa using fun _ _ _ => le_trans) (by simpa using le_total) _
    simpa only [decide_eq_true_eq] using pairs
  have once : graph.styles.Nodup := (List.mergeSort_perm _ _).nodup_iff.mpr (nodup_distinct _)
  exact (sorted.and once).imp fun ⟨before, differs⟩ => lt_of_le_of_ne before differs

/-- The order of the edges makes no difference to the styles. -/
theorem styles_eq_of_same {other : Graph α}
    (same : ∀ style, (∃ edge ∈ graph.edges, edge.style = some style) ↔
      ∃ edge ∈ other.edges, edge.style = some style) : graph.styles = other.styles := by
  refine List.Pairwise.eq_of_mem_iff (pairwise_styles graph) (pairwise_styles other) fun style => ?_
  rw [mem_styles, mem_styles, same]

end Graph

/-! ## Legends -/

theorem isFilled_swatch (label color : String) :
    IsFilled color (LegendEntry.swatch label color).toJson := by
  simp [IsFilled, LegendEntry.toJson, LegendEntry.swatch, Json.at?]

theorem standsFor_line (style : EdgeStyle) :
    StandsFor style (LegendEntry.line style.name style.color style.pattern).toJson := by
  simp [StandsFor, IsFilled, IsStroked, LegendEntry.toJson, LegendEntry.line, Json.at?,
    Json.textAt?, Json.string?]

theorem standsFor_legendCarrier (style : EdgeStyle) : StandsFor style (legendCarrier style) := by
  simp [StandsFor, IsFilled, IsStroked, legendCarrier, Json.at?, Json.textAt?, Json.string?]

/-- Every style gets a color. -/
theorem map_name_assignStyles (styles explicit theme : List String) :
    (assignStyles styles explicit theme).map (·.name) = styles := by
  have colored : (chooseColors explicit theme styles.length).length = styles.length := by
    rw [chooseColors, List.length_map, List.length_range]
  refine List.ext_getElem (by simp [assignStyles, colored]) fun position here here' => ?_
  simp [assignStyles]

namespace Drawing

variable (drawing : Drawing) (config : Config) (dark : Bool)

theorem emittedLegends_toChart : emittedLegends (drawing.toChart config dark) =
    drawing.categoryLegend.toJson dark ::
      if drawing.styles = [] then [] else [(styleLegend drawing.styles).toJson dark] := by
  have given : (drawing.toChart config dark).option.member? "legend" =
      some (drawing.legend dark) := by
    simp [toChart, around]
  obtain ⟨members, categories⟩ : ∃ members, drawing.categoryLegend.toJson dark = .object members :=
    ⟨_, rfl⟩
  rw [emittedLegends, given, legend]
  by_cases unstyled : drawing.styles = []
  · simp [unstyled, categories]
  · simp [unstyled]

theorem categoryEntries_toChart : categoryEntries (drawing.toChart config dark) =
    (List.zipWith LegendEntry.swatch drawing.categories drawing.colors).map LegendEntry.toJson := by
  rw [categoryEntries, emittedLegends_toChart, List.headD_cons, Legend.itemsAt_data_toJson]
  rfl

/-- The entry of a category has the color at the position of the category. -/
theorem getElem?_categoryEntries (colored : drawing.categories.length ≤ drawing.colors.length)
    {index : Nat} {category : String} (here : drawing.categories[index]? = some category) :
    (categoryEntries (drawing.toChart config dark))[index]? =
      some (LegendEntry.swatch category (drawing.colors.getD index "")).toJson := by
  obtain ⟨inside, rfl⟩ := List.getElem?_eq_some_iff.mp here
  have covered : index < drawing.colors.length := Nat.lt_of_lt_of_le inside colored
  rw [categoryEntries_toChart]
  simp [inside, covered]

theorem styleEntries_toChart : styleEntries (drawing.toChart config dark) =
    drawing.styles.map fun style =>
      (LegendEntry.line style.name style.color style.pattern).toJson := by
  rw [styleEntries, emittedLegends_toChart]
  by_cases unstyled : drawing.styles = []
  · simp [unstyled, Json.itemsAt]
  · simp [unstyled, Legend.itemsAt_data_toJson, styleLegend]

theorem carriers_toChart :
    carriers (drawing.toChart config dark) = drawing.styles.map legendCarrier := by
  simp [carriers, toChart, around, Json.itemsAt, Json.items?]

/-- A node is filled with the color at the position of its category. -/
theorem nodeItem_of_category {node : Node Float} {category : String}
    (grouped : node.category = some category) (largestValue : Float) (place : Point) :
    (drawing.nodeItem largestValue node place).member? "category" =
        some (.integer (drawing.categories.idxOf category)) ∧
      IsFilled (drawing.colors.getD (drawing.categories.idxOf category) "")
        (drawing.nodeItem largestValue node place) := by
  have index : drawing.categoryIndex? node = some (drawing.categories.idxOf category) := by
    rw [categoryIndex?, grouped, Option.map_some]
  constructor
  · rw [nodeItem, paintNode, index, Json.member?_setIf_of_ne (by decide)]
    exact (Members.find?_insert _).trans (if_pos rfl)
  · rw [IsFilled, nodeItem, paintNode, index, Json.at?, Json.member?_setIf_of_ne (by decide),
      Json.member?_set_of_ne (by decide)]
    simp [Json.at?]

/-- A node without category is not in one. -/
theorem nodeItem_of_no_category {node : Node Float} (single : node.category = none)
    (largestValue : Float) (place : Point) :
    (drawing.nodeItem largestValue node place).member? "category" = none := by
  have index : drawing.categoryIndex? node = none := by
    rw [categoryIndex?, single, Option.map_none]
  rw [nodeItem, paintNode, index, Json.member?_setIf_of_ne (by decide)]
  simp

/-- The node at a position is that of the graph at the position. -/
theorem getElem?_emittedNodes (placed : drawing.places.length = drawing.graph.nodes.length)
    {position : Nat} {node : Node Float} (here : drawing.graph.nodes[position]? = some node) :
    ∃ largestValue place, (emittedNodes (drawing.toChart config dark))[position]? =
      some (drawing.nodeItem largestValue node place) := by
  obtain ⟨inside, rfl⟩ := List.getElem?_eq_some_iff.mp here
  refine ⟨drawing.graph.largestValue, drawing.places.get ⟨position, placed ▸ inside⟩, ?_⟩
  rw [emittedNodes_toChart, nodeItems, List.getElem?_append_left (by simp [placed, inside])]
  simp [placed, inside]

/-- The link of an edge is drawn in the style of its name. -/
theorem isStroked_edgeItem {edge : Edge Float} {name : String} (styled : edge.style = some name)
    (known : name ∈ drawing.styles.map (·.name)) (position : Nat) (width bend : Float) :
    ∃ style ∈ drawing.styles, style.name = name ∧
      IsStroked style (drawing.edgeItem position edge width bend) := by
  obtain ⟨style, member, same⟩ := List.mem_map.mp known
  have present : (drawing.styles.find? fun style => style.name = name).isSome = true :=
    List.find?_isSome.mpr ⟨style, member, decide_eq_true same⟩
  obtain ⟨found, here⟩ := Option.isSome_iff_exists.mp present
  have named : found.name = name := by simpa using List.find?_some here
  refine ⟨found, List.mem_of_find?_eq_some here, named, ?_⟩
  simp [IsStroked, edgeItem, paintEdge, styled, here, Json.at?]

end Drawing

/-! ## Compiled networks -/

/-- The legends of a chart tell what its nodes and links show, where these are the styles of the
edges. -/
structure LegendsHold (chart : CompiledChart) (graph : Graph Float) (styles : List EdgeStyle) :
    Prop where
  /-- The categories are those of the nodes. -/
  grouped : ∀ category,
    category ∈ graph.categories ↔ ∃ node ∈ graph.nodes, node.category = some category
  /-- Each category comes up once. -/
  distinct : graph.categories.Nodup
  /-- The series lists the categories. -/
  categories :
    ((emittedSeries chart).itemsAt "categories").map (·.textAt? "name") = graph.categories.map some
  /-- The legend of the categories has an entry for each of them. -/
  entries : (categoryEntries chart).map (·.textAt? "name") = graph.categories.map some
  /-- A node names the position of its category and has the color of the entry there. -/
  nodes : ∀ (position : Nat) (node : Node Float) (category : String),
    graph.nodes[position]? = some node → node.category = some category →
      ∃ item index entry color, (emittedNodes chart)[position]? = some item ∧
        item.textAt? "id" = some node.id ∧ graph.categories[index]? = some category ∧
        item.member? "category" = some (.integer (index : Nat)) ∧
        (categoryEntries chart)[index]? = some entry ∧ IsFilled color entry ∧ IsFilled color item
  /-- A node without category names none. -/
  singles : ∀ (position : Nat) (node : Node Float), graph.nodes[position]? = some node →
    node.category = none → ∃ item, (emittedNodes chart)[position]? = some item ∧
      item.textAt? "id" = some node.id ∧ item.member? "category" = none
  /-- The styles are those of the edges. -/
  styled : ∀ name,
    name ∈ styles.map (·.name) ↔ ∃ edge ∈ graph.edges, edge.style = some name
  /-- The styles are in ascending order, each once. -/
  sorted : (styles.map (·.name)).Pairwise (· < ·)
  /-- The legend of the styles has an entry for each of them. -/
  legend : List.Forall₂ StandsFor styles (styleEntries chart)
  /-- A series without data follows for each style. -/
  carried : List.Forall₂ StandsFor styles (carriers chart)
  /-- There is a link for each edge. -/
  length : (emittedLinks chart).length = graph.edges.length
  /-- The link of an edge with a style has the color and the pattern of the style. -/
  links : ∀ (position : Nat) (edge : Edge Float) (name : String),
    graph.edges[position]? = some edge → edge.style = some name →
      ∃ link style, (emittedLinks chart)[position]? = some link ∧ style ∈ styles ∧
        style.name = name ∧ IsStroked style link

theorem map_name_stylesOf (graph : Graph Float) (config : Config) (dark : Bool) :
    (stylesOf graph config dark).map (·.name) = graph.styles :=
  map_name_assignStyles _ _ _

/-- The legends of a drawing hold. -/
theorem Drawing.legendsHold_of (graph : Graph Float) (config : Config) (dark : Bool) :
    LegendsHold ((Drawing.of graph config dark).toChart config dark) graph
      (stylesOf graph config dark) := by
  have colored : graph.categories.length ≤ (Drawing.of graph config dark).colors.length := by
    rw [Drawing.of, length_seriesColors]
    exact Nat.le_max_left _ _
  have placed : (Drawing.of graph config dark).places.length = graph.nodes.length := by
    simp [Drawing.of, seeds]
  constructor
  case grouped => exact fun category => mem_categories graph
  case distinct => exact nodup_distinct _
  case categories =>
    rw [emittedSeries_toChart]
    simp [liveSeries, Json.itemsAt, Json.items?, Json.textAt?, Json.string?, Drawing.of]
  case entries =>
    rw [categoryEntries_toChart]
    exact Legend.map_name_swatches colored
  case nodes =>
    intro position node category here inCategory
    have known : category ∈ graph.categories :=
      (mem_categories graph).mpr ⟨node, List.mem_of_getElem? here, inCategory⟩
    obtain ⟨largestValue, place, emitted⟩ := getElem?_emittedNodes _ config dark placed here
    obtain ⟨named, filled⟩ :=
      (Drawing.of graph config dark).nodeItem_of_category inCategory largestValue place
    have listed := List.getElem?_idxOf known
    exact ⟨_, _, _, _, emitted, textAt?_id_nodeItem _ _ _ _, listed, named,
      getElem?_categoryEntries _ config dark colored listed, isFilled_swatch _ _, filled⟩
  case singles =>
    intro position node here single
    obtain ⟨largestValue, place, emitted⟩ := getElem?_emittedNodes _ config dark placed here
    exact ⟨_, emitted, textAt?_id_nodeItem _ _ _ _, nodeItem_of_no_category _ single _ _⟩
  case styled =>
    intro name
    rw [map_name_stylesOf, mem_styles]
  case sorted =>
    rw [map_name_stylesOf]
    exact pairwise_styles graph
  case legend =>
    rw [styleEntries_toChart]
    exact List.forall₂_map_right_iff.mpr (List.forall₂_same.mpr fun style _ => standsFor_line style)
  case carried =>
    rw [carriers_toChart]
    exact List.forall₂_map_right_iff.mpr
      (List.forall₂_same.mpr fun style _ => standsFor_legendCarrier style)
  case length =>
    rw [emittedLinks_toChart, List.length_map, length_styledEdges]
    rfl
  case links =>
    intro position edge name here styled
    have known : name ∈ (Drawing.of graph config dark).styles.map (·.name) := by
      rw [show (Drawing.of graph config dark).styles = stylesOf graph config dark from rfl,
        map_name_stylesOf]
      exact (mem_styles graph).mpr ⟨edge, List.mem_of_getElem? here, styled⟩
    obtain ⟨styledEdge, there⟩ : ∃ styledEdge,
        (Drawing.of graph config dark).styledEdges[position]? = some styledEdge := by
      refine ⟨_, List.getElem?_eq_getElem ?_⟩
      rw [length_styledEdges]
      exact (List.getElem?_eq_some_iff.mp here).1
    obtain ⟨other, width, bend, here', -, same⟩ := edge_of_getElem?_styledEdges _ there
    obtain rfl : edge = other := Option.some.inj (here.symm.trans here')
    obtain ⟨style, member, named, stroked⟩ :=
      (Drawing.of graph config dark).isStroked_edgeItem styled known position width bend
    refine ⟨styledEdge.edge, style, ?_, member, named, same ▸ stroked⟩
    rw [emittedLinks_toChart, List.getElem?_map, there, Option.map_some]

/-- A network that shows anything is its drawing. -/
theorem compile_eq_toChart {rows : Json} {given : List Record} {config : Config} {dark : Bool}
    (accepted : records rows = .ok given) (plain : config.overrides = none)
    (shown : (ChartKind.network.compile rows config dark).isEmpty = false) :
    ChartKind.network.compile rows config dark =
      (Drawing.of (Graph.ofRows given config) config dark).toChart config dark := by
  rw [compile_network accepted plain] at shown ⊢
  rw [chart?] at shown ⊢
  split at shown
  · cases (CompiledChart.isEmpty_empty dark).symm.trans shown
  · next edges => rw [if_neg edges, Option.getD_some]

/-- **The legends of a network hold, and the colors and patterns of its styles depend on nothing but
which styles its edges have.** -/
theorem legends_hold {rows : Json} {given : List Record} {config : Config} {dark : Bool}
    (accepted : records rows = .ok given) (plain : config.overrides = none)
    (shown : (ChartKind.network.compile rows config dark).isEmpty = false) :
    LegendsHold (ChartKind.network.compile rows config dark) (Graph.ofRows given config)
        (stylesOf (Graph.ofRows given config) config dark) ∧
      ∀ (rows' : Json) (given' : List Record), records rows' = .ok given' →
        (ChartKind.network.compile rows' config dark).isEmpty = false →
        (∀ style,
          (∃ edge ∈ (Graph.ofRows given config : Graph Float).edges, edge.style = some style) ↔
            ∃ edge ∈ (Graph.ofRows given' config : Graph Float).edges, edge.style = some style) →
        stylesOf (Graph.ofRows given' config) config dark =
            stylesOf (Graph.ofRows given config) config dark ∧
          (emittedLegends (ChartKind.network.compile rows' config dark)).tail =
            (emittedLegends (ChartKind.network.compile rows config dark)).tail ∧
          carriers (ChartKind.network.compile rows' config dark) =
            carriers (ChartKind.network.compile rows config dark) := by
  have drawn := compile_eq_toChart accepted plain shown
  refine ⟨drawn ▸ Drawing.legendsHold_of _ config dark, ?_⟩
  intro rows' given' accepted' shown' same
  have styles : stylesOf (Graph.ofRows given' config) config dark =
      stylesOf (Graph.ofRows given config) config dark := by
    rw [stylesOf, stylesOf, styles_eq_of_same _ same]
  have styles' : (Drawing.of (Graph.ofRows given' config) config dark).styles =
      (Drawing.of (Graph.ofRows given config) config dark).styles := styles
  refine ⟨styles, ?_, ?_⟩
  · rw [drawn, compile_eq_toChart accepted' plain shown', Drawing.emittedLegends_toChart,
      Drawing.emittedLegends_toChart, List.tail_cons, List.tail_cons, styles']
  · rw [drawn, compile_eq_toChart accepted' plain shown', Drawing.carriers_toChart,
      Drawing.carriers_toChart, styles']

/-- Edges of two styles and one without. -/
def moves : List Record :=
  [ [("kind", "swap"), ("source", "left"), ("source_group", "west"), ("target", "right")],
    [("kind", "loan"), ("source", "right"), ("target", "left")],
    [("source", "right"), ("target", "top")] ]

/-- Styles are read from the kinds of edges. -/
def kindConfig : Config :=
  { network := { edgeStyleField := some "kind" } }

/-- Two styles get the same colors and patterns in whatever order their edges are given. -/
theorem legends_hold_of_moves :
    LegendsHold (ChartKind.network.compile (.array (moves.map .object)) kindConfig false)
        (Graph.ofRows moves kindConfig)
        (stylesOf (Graph.ofRows moves kindConfig) kindConfig false) ∧
      (stylesOf (Graph.ofRows moves kindConfig) kindConfig false).length = 2 ∧
      carriers (ChartKind.network.compile (.array (moves.reverse.map .object)) kindConfig false) =
        carriers (ChartKind.network.compile (.array (moves.map .object)) kindConfig false) := by
  have accepted : records (.array (moves.map .object)) = .ok moves := rfl
  have accepted' : records (.array (moves.reverse.map .object)) = .ok moves.reverse := rfl
  have shown : (ChartKind.network.compile (.array (moves.map .object)) kindConfig
      false).isEmpty = false := by decide +kernel
  have shown' : (ChartKind.network.compile (.array (moves.reverse.map .object)) kindConfig
      false).isEmpty = false := by decide +kernel
  have styles : (Graph.ofRows moves kindConfig : Graph Float).edges.filterMap (·.style) =
      ["swap", "loan"] := by decide +kernel
  have styles' : (Graph.ofRows moves.reverse kindConfig : Graph Float).edges.filterMap (·.style) =
      ["loan", "swap"] := by decide +kernel
  obtain ⟨hold, unordered⟩ := legends_hold accepted rfl shown
  refine ⟨hold, ?_, (unordered _ _ accepted' shown' fun style => ?_).2.2⟩
  · rw [← List.length_map (·.name), map_name_stylesOf, Graph.styles, List.length_mergeSort, styles]
    rfl
  · rw [← List.mem_filterMap, ← List.mem_filterMap, styles, styles']
    simp [or_comm]

end ChartCompiler.Network
