import ChartCompiler.Proofs.Axis.Alignment
import ChartCompiler.Proofs.Network.Identity

/-!
# Which edges a selection shows

A network with styled edges lists them twice: as the links of its series, and by style in the
binding that answers a selection of legend entries.  The two lists are one
(`binding_answers_for_links`): without a selection the binding returns the links, and a selection
takes away those whose style it switches off, so it does not matter in which order styles are
hidden.

A selection keeps the entries of both legends under their names.  Nothing keeps a category and an
edge style from sharing a name, and then they share the entry too.  So toggling categories leaves
the edges alone exactly when no category is the name of a style (`category_toggles_iff`); in any
case it leaves the edges alone whose style is not the name of a category.
-/

set_option autoImplicit false

namespace ChartCompiler

namespace EdgeBinding

/-! ## Selections -/

/-- Whether a selection switches a style off.  What has no style is never switched off, and neither
is what the selection holds something else about. -/
def switchesOff (selection : Members) : Option String → Bool
  | none => false
  | some style =>
    match Members.find? style selection with
    | some (.bool false) => true
    | _ => false

theorem isShown_eq (selection : Members) (entry : StyledEdge) :
    isShown selection entry = !switchesOff selection entry.style := by
  cases named : entry.style with
  | none => simp [isShown, switchesOff, named]
  | some style =>
      rw [isShown, named, switchesOff, Option.bind_some]
      cases Members.find? style selection with
      | none => rfl
      | some value =>
          cases value with
          | bool shown => cases shown <;> rfl
          | _ => rfl

/-- A selection after some styles have been switched off. -/
def hide (styles : List String) (selection : Members) : Members :=
  styles.foldl (fun selection style => Members.insert style (.bool false) selection) selection

theorem find?_hide (styles : List String) (selection : Members) (name : String) :
    Members.find? name (hide styles selection) =
      if name ∈ styles then some (.bool false) else Members.find? name selection := by
  induction styles generalizing selection with
  | nil => rfl
  | cons style rest ih =>
      rw [hide, List.foldl_cons, ← hide, ih, Members.find?_insert]
      by_cases here : style = name
      · simp [here]
      · simp [here, Ne.symm here]

/-- Only the styles that are hidden are switched off besides. -/
theorem switchesOff_hide (styles : List String) (selection : Members) (style : Option String) :
    switchesOff (hide styles selection) style =
      (style.any (decide <| · ∈ styles) || switchesOff selection style) := by
  cases style with
  | none => rfl
  | some style =>
      rw [switchesOff, find?_hide, switchesOff, Option.any_some]
      by_cases hidden : style ∈ styles
      · simp [hidden]
      · simp [hidden]

/-! ## Answers -/

variable (binding : EdgeBinding)

/-- The binding with the edges that a selection shows. -/
def narrow (selection : Members) : EdgeBinding :=
  { binding with edges := binding.edges.filter (isShown selection) }

theorem edgesFor_eq (selection : Members) :
    binding.edgesFor selection =
      (binding.edges.filter fun entry => !switchesOff selection entry.style).map (·.edge) := by
  rw [edgesFor]
  exact congrArg (List.map _) (List.filter_congr fun entry _ => isShown_eq selection entry)

theorem edgesFor_nil : binding.edgesFor [] = binding.edges.map (·.edge) := by
  have unchosen (style : Option String) : switchesOff [] style = false := by cases style <;> rfl
  rw [edgesFor_eq, List.filter_eq_self.mpr fun entry _ => by rw [unchosen]; rfl]

/-- A selection keeps the edges beside the styles it does not switch off. -/
theorem edgesFor_eq_filter_zip (selection : Members) :
    binding.edgesFor selection =
      (((binding.edgesFor []).zip (binding.edges.map (·.style))).filter fun (_, style) =>
        !switchesOff selection style).map (·.1) := by
  rw [edgesFor_eq, edgesFor_nil, List.zip_map', List.filter_map, List.map_map]
  rfl

theorem length_edgesFor (selection : Members) :
    (binding.edgesFor selection).length =
      (binding.edges.map (·.style)).countP fun style => !switchesOff selection style := by
  rw [edgesFor_eq, List.length_map, ← List.countP_eq_length_filter, List.countP_map]
  rfl

/-- Selections that switch the same styles off show the same edges. -/
theorem edgesFor_congr {first second : Members}
    (agree : ∀ entry ∈ binding.edges,
      switchesOff first entry.style = switchesOff second entry.style) :
    binding.edgesFor first = binding.edgesFor second := by
  rw [edgesFor_eq, edgesFor_eq]
  exact congrArg (List.map _) (List.filter_congr fun entry member => by rw [agree entry member])

theorem edgesFor_narrow (first second : Members) :
    (binding.narrow first).edgesFor second =
      (binding.edges.filter fun entry =>
        !switchesOff first entry.style && !switchesOff second entry.style).map (·.edge) := by
  rw [edgesFor_eq, narrow, List.filter_filter]
  refine congrArg (List.map _) (List.filter_congr fun entry _ => ?_)
  rw [isShown_eq, Bool.and_comm]

section Union

variable {first second union : List String}
  (together : ∀ style, style ∈ union ↔ style ∈ first ∨ style ∈ second)

include together

/-- Hiding styles one after the other switches off what hiding them together does. -/
theorem switchesOff_hide_hide (selection : Members) (style : Option String) :
    switchesOff (hide second (hide first selection)) style =
      switchesOff (hide union selection) style := by
  rw [switchesOff_hide, switchesOff_hide, switchesOff_hide, ← Bool.or_assoc]
  congr 1
  cases style with
  | none => rfl
  | some style =>
      rw [Option.any_some, Option.any_some, Option.any_some, ← Bool.decide_or]
      exact decide_eq_decide.mpr (or_comm.trans (together style).symm)

theorem edgesFor_hide_hide (selection : Members) :
    binding.edgesFor (hide second (hide first selection)) =
      binding.edgesFor (hide union selection) :=
  binding.edgesFor_congr fun entry _ => switchesOff_hide_hide together selection entry.style

/-- What is left after some styles are hidden can be narrowed down once more. -/
theorem edgesFor_narrow_hide (selection : Members) :
    (binding.narrow (hide first selection)).edgesFor (hide second selection) =
      binding.edgesFor (hide union selection) := by
  rw [edgesFor_narrow, edgesFor_eq]
  refine congrArg (List.map _) (List.filter_congr fun entry _ => ?_)
  rw [← switchesOff_hide_hide together]
  simp only [switchesOff_hide]
  cases switchesOff selection entry.style <;> simp [Bool.and_comm]

end Union

/-! ## Toggling some names only -/

/-- Two selections hold the same about every name outside a list. -/
def AgreeOutside (names : List String) (first second : Members) : Prop :=
  ∀ name, name ∉ names → Members.find? name first = Members.find? name second

/-- The binding without the edges whose style is among some names. -/
def without (names : List String) : EdgeBinding :=
  { binding with
    edges := binding.edges.filter fun entry => !entry.style.any (decide <| · ∈ names) }

theorem mem_styles {style : String} :
    style ∈ binding.styles ↔ ∃ entry ∈ binding.edges, entry.style = some style := by
  rw [styles, mem_distinct, List.mem_filterMap]

variable {binding} {names : List String}

/-- An edge shows no difference between selections that agree about its style. -/
theorem AgreeOutside.switchesOff_eq {first second : Members}
    (agree : AgreeOutside names first second) {style : Option String}
    (unlisted : ∀ name, style = some name → name ∉ names) :
    switchesOff first style = switchesOff second style := by
  cases style with
  | none => rfl
  | some style => simp only [switchesOff, agree style (unlisted style rfl)]

/-- Toggling some names does not touch the edges whose style is not among them. -/
theorem edgesFor_without {first second : Members} (agree : AgreeOutside names first second) :
    (binding.without names).edgesFor first = (binding.without names).edgesFor second := by
  refine edgesFor_congr _ fun entry member => agree.switchesOff_eq fun name named listed => ?_
  have kept := (List.mem_filter.mp member).2
  rw [named, Option.any_some, decide_eq_true listed] at kept
  cases kept

/-- **Toggling some names touches no edge exactly when none of the names is a style.** -/
theorem edgesFor_independent_iff :
    (∀ first second, AgreeOutside names first second →
        binding.edgesFor first = binding.edgesFor second) ↔
      ∀ name ∈ names, name ∉ binding.styles := by
  constructor
  · intro independent name listed styled
    obtain ⟨entry, member, named⟩ := binding.mem_styles.mp styled
    have agree : AgreeOutside names [] (hide [name] []) := by
      intro other unlisted
      have other_ne : other ∉ [name] := fun same => unlisted (List.mem_singleton.mp same ▸ listed)
      rw [find?_hide, if_neg other_ne]
    have lengths := congrArg List.length (independent [] (hide [name] []) agree)
    rw [edgesFor_nil, List.length_map, length_edgesFor, List.countP_map] at lengths
    -- All edges are shown, the one with the style among them.
    have shown := List.countP_eq_length.mp lengths.symm entry member
    simp [switchesOff_hide, named] at shown
  · intro apart first second agree
    refine edgesFor_congr _ fun entry member => agree.switchesOff_eq fun name named listed => ?_
    exact apart name listed (binding.mem_styles.mpr ⟨entry, member, named⟩)

end EdgeBinding

namespace Network

/-! ## The binding of a network -/

/-- The names in the legend of the categories, which comes before that of the styles. -/
def categoryNames (chart : CompiledChart) : List (Option String) :=
  (((chart.option.itemsAt "legend").headD .null).itemsAt "data").map (·.textAt? "name")

namespace Drawing

variable (drawing : Drawing) (config : Config) (dark : Bool)

/-- The edges are listed with the styles they have. -/
theorem map_style_styledEdges :
    drawing.styledEdges.map (·.style) = drawing.graph.edges.map (·.style) := by
  refine List.ext_getElem (by simp [length_styledEdges]) fun position here _ => ?_
  rw [List.length_map] at here
  obtain ⟨edge, _, _, found, same, -⟩ :=
    drawing.edge_of_getElem?_styledEdges (List.getElem?_eq_getElem here)
  obtain ⟨_, same'⟩ := List.getElem?_eq_some_iff.mp found
  rw [List.getElem_map, List.getElem_map, same, same']

theorem itemsAt_series_toChart :
    (drawing.toChart config dark).option.itemsAt "series" =
      drawing.liveSeries config drawing.nodeItems drawing.styledEdges ::
        drawing.styles.map legendCarrier := by
  simp [toChart, around, Json.itemsAt, Json.items?]

theorem member?_links_liveSeries (nodes : List Json) (edges : List StyledEdge) :
    (drawing.liveSeries config nodes edges).member? "links" =
      some (.array (edges.map (·.edge))) := by
  simp [liveSeries]

/-- With styles there are two legends, and the first one lists the categories. -/
theorem categoryNames_toChart (styled : drawing.styles ≠ [])
    (colored : drawing.categories.length ≤ drawing.colors.length) :
    categoryNames (drawing.toChart config dark) = drawing.categories.map some := by
  have legends : (drawing.toChart config dark).option.itemsAt "legend" =
      [drawing.categoryLegend.toJson dark, (styleLegend drawing.styles).toJson dark] := by
    simp [toChart, around, legend, styled, Json.itemsAt, Json.items?]
  rw [categoryNames, legends, List.headD_cons, Legend.itemsAt_data_toJson]
  exact Legend.map_name_swatches colored

end Drawing

/-- A network with a binding is drawn from its records, and the binding holds the edges of the
drawing. -/
theorem drawn_of_edgeBinding {rows : Json} {config : Config} {dark : Bool} {binding : EdgeBinding}
    (bound : (ChartKind.network.compile rows config dark).edgeBinding = some binding) :
    ∃ given, records rows = .ok given ∧
      (Drawing.of (Graph.ofRows given config) config dark).styles ≠ [] ∧
      binding = {
        seriesIndex := 0
        edges := (Drawing.of (Graph.ofRows given config) config dark).styledEdges } ∧
      (config.overrides = none → ChartKind.network.compile rows config dark =
        (Drawing.of (Graph.ofRows given config) config dark).toChart config dark) := by
  cases accepted : records rows with
  | error refusal => simp [ChartKind.compile, accepted, CompiledChart.empty,
      CompiledChart.ofOption] at bound
  | ok given =>
      refine ⟨given, rfl, ?_⟩
      -- Overrides are laid over the option alone.
      have unlaid : (ChartKind.network.compile rows config dark).edgeBinding =
          ((chart? (Graph.ofRows given config) config dark).getD (.empty dark)).edgeBinding := by
        simp only [ChartKind.compile, accepted, ChartKind.chart?]
        cases chart? (Graph.ofRows given config) config dark with
        | none => rfl
        | some chart => cases config.overrides <;> rfl
      rw [unlaid, chart?] at bound
      split at bound
      · cases bound
      · next edges =>
          rw [Option.getD_some, Drawing.toChart, Drawing.around] at bound
          split at bound
          · cases bound
          · next styled =>
              refine ⟨mt List.isEmpty_iff.mpr styled, (Option.some.inj bound).symm, fun plain => ?_⟩
              rw [compile_network accepted plain, chart?, if_neg edges]
              rfl

/-- The edges of a binding have the styles of the edges of the graph. -/
theorem map_style_edges {rows : Json} {given : List Record} {config : Config} {dark : Bool}
    {binding : EdgeBinding}
    (bound : (ChartKind.network.compile rows config dark).edgeBinding = some binding)
    (accepted : records rows = .ok given) :
    binding.edges.map (·.style) =
      (Graph.ofRows given config : Graph Float).edges.map (·.style) := by
  obtain ⟨found, accepted', -, rfl, -⟩ := drawn_of_edgeBinding bound
  obtain rfl : given = found := Except.ok.inj (accepted.symm.trans accepted')
  exact Drawing.map_style_styledEdges _

/-! ## Links and selections -/

open EdgeBinding

/-- A binding answers for the links of a chart, where these are the styles of the links. -/
structure AnswersFor (binding : EdgeBinding) (chart : CompiledChart)
    (styles : List (Option String)) : Prop where
  /-- Without a selection the answer is what the series at the position of the binding draws. -/
  links : ∃ series, (chart.option.itemsAt "series")[binding.seriesIndex]? = some series ∧
    series.member? "links" = some (.array (binding.edgesFor []))
  /-- There is a style, or none, for each link. -/
  styled : styles.length = (binding.edgesFor []).length
  /-- A selection keeps the links whose style it does not switch off. -/
  shown : ∀ selection, binding.edgesFor selection =
    (((binding.edgesFor []).zip styles).filter fun (_, style) =>
      !switchesOff selection style).map (·.1)
  /-- Styles may be hidden one after the other in a selection. -/
  successive : ∀ first second union : List String,
    (∀ style, style ∈ union ↔ style ∈ first ∨ style ∈ second) → ∀ selection,
      binding.edgesFor (hide second (hide first selection)) =
        binding.edgesFor (hide union selection)
  /-- Styles may be hidden among the links that are left after others have been. -/
  narrowed : ∀ first second union : List String,
    (∀ style, style ∈ union ↔ style ∈ first ∨ style ∈ second) → ∀ selection,
      (binding.narrow (hide first selection)).edgesFor (hide second selection) =
        binding.edgesFor (hide union selection)

/-- **The binding of a network answers for the links of its series.** -/
theorem binding_answers_for_links {rows : Json} {config : Config} {dark : Bool}
    {binding : EdgeBinding} (plain : config.overrides = none)
    (bound : (ChartKind.network.compile rows config dark).edgeBinding = some binding) :
    ∃ given, records rows = .ok given ∧
      AnswersFor binding (ChartKind.network.compile rows config dark)
        ((Graph.ofRows given config : Graph Float).edges.map (·.style)) := by
  obtain ⟨given, accepted, -, rfl, drawn⟩ := drawn_of_edgeBinding bound
  have styles := map_style_edges bound accepted
  refine ⟨given, accepted, ?_⟩
  constructor
  case links =>
    rw [drawn plain, Drawing.itemsAt_series_toChart, edgesFor_nil]
    exact ⟨_, List.getElem?_cons_zero, Drawing.member?_links_liveSeries _ _ _ _⟩
  case styled =>
    rw [← styles, edgesFor_nil, List.length_map, List.length_map]
  case shown =>
    intro selection
    rw [← styles]
    exact edgesFor_eq_filter_zip _ selection
  case successive =>
    intro first second union together selection
    exact edgesFor_hide_hide _ together selection
  case narrowed =>
    intro first second union together selection
    exact edgesFor_narrow_hide _ together selection

/-- An edge within a group of one name and an edge without style. -/
def groupedRecords (style : String) : List Record :=
  [[("kind", .string style), ("source", "left"), ("source_group", "bridge"), ("target", "right")],
    [("source", "right"), ("target", "left")]]

/-- The records as rows. -/
def groupedRows (style : String) : Json :=
  .array ((groupedRecords style).map .object)

/-- Styles are read from the kinds of edges. -/
def styledConfig : Config :=
  { network := { edgeStyleField := some "kind" } }

/-- Of two links one has a style. -/
theorem binding_answers_for_links_of_swap :
    ∃ binding given, styledConfig.overrides = none ∧
      (ChartKind.network.compile (groupedRows "swap") styledConfig false).edgeBinding =
        some binding ∧
      records (groupedRows "swap") = .ok given ∧
      AnswersFor binding (ChartKind.network.compile (groupedRows "swap") styledConfig false)
        ((Graph.ofRows given styledConfig : Graph Float).edges.map (·.style)) := by
  have isBound : (ChartKind.network.compile (groupedRows "swap") styledConfig
      false).edgeBinding.isSome = true := by decide +kernel
  obtain ⟨binding, bound⟩ := Option.isSome_iff_exists.mp isBound
  obtain ⟨given, accepted, answers⟩ := binding_answers_for_links rfl bound
  exact ⟨binding, given, rfl, bound, accepted, answers⟩

/-- **Toggling categories leaves the edges alone whose style is not the name of a category; it
leaves all edges alone exactly when no category is the name of a style.** -/
theorem category_toggles_iff {rows : Json} {config : Config} {dark : Bool} {binding : EdgeBinding}
    (bound : (ChartKind.network.compile rows config dark).edgeBinding = some binding) :
    ∃ given, records rows = .ok given ∧
      (config.overrides = none →
        categoryNames (ChartKind.network.compile rows config dark) =
          (Graph.ofRows given config : Graph Float).categories.map some) ∧
      ((∀ first second,
          AgreeOutside (Graph.ofRows given config : Graph Float).categories first second →
            binding.edgesFor first = binding.edgesFor second) ↔
        ∀ category ∈ (Graph.ofRows given config : Graph Float).categories,
          category ∉ binding.styles) ∧
      ∀ first second,
        AgreeOutside (Graph.ofRows given config : Graph Float).categories first second →
          (binding.without (Graph.ofRows given config : Graph Float).categories).edgesFor first =
            (binding.without (Graph.ofRows given config : Graph Float).categories).edgesFor
              second := by
  obtain ⟨given, accepted, styled, -, drawn⟩ := drawn_of_edgeBinding bound
  refine ⟨given, accepted, fun plain => ?_, edgesFor_independent_iff,
    fun first second agree => edgesFor_without agree⟩
  rw [drawn plain]
  refine Drawing.categoryNames_toChart _ config dark styled ?_
  rw [Drawing.of, length_seriesColors]
  exact Nat.le_max_left _ _

/-- A category and a style of different names. -/
theorem category_toggles_iff_of_swap :
    ∃ binding,
      (ChartKind.network.compile (groupedRows "swap") styledConfig false).edgeBinding =
        some binding ∧
      categoryNames (ChartKind.network.compile (groupedRows "swap") styledConfig false) =
        [some "bridge"] ∧
      ∀ first second, AgreeOutside ["bridge"] first second →
        binding.edgesFor first = binding.edgesFor second := by
  have isBound : (ChartKind.network.compile (groupedRows "swap") styledConfig
      false).edgeBinding.isSome = true := by decide +kernel
  obtain ⟨binding, bound⟩ := Option.isSome_iff_exists.mp isBound
  obtain ⟨given, accepted, names, independent, -⟩ := category_toggles_iff bound
  have styles := map_style_edges bound accepted
  obtain rfl : given = groupedRecords "swap" := (Except.ok.inj accepted).symm
  have categories : (Graph.ofRows (groupedRecords "swap") styledConfig : Graph Float).categories =
      ["bridge"] := by decide +kernel
  rw [categories] at names independent
  refine ⟨binding, bound, names rfl, independent.mpr fun category listed styled => ?_⟩
  obtain ⟨entry, member, named⟩ := binding.mem_styles.mp styled
  have known : some category ∈ binding.edges.map (·.style) :=
    named ▸ List.mem_map_of_mem member
  rw [styles, List.mem_singleton.mp listed] at known
  revert known
  decide +kernel

/-- A category and a style of one name: hiding the category hides the edge. -/
theorem edges_hidden_by_category_of_bridge :
    ∃ binding,
      (ChartKind.network.compile (groupedRows "bridge") styledConfig false).edgeBinding =
        some binding ∧
      categoryNames (ChartKind.network.compile (groupedRows "bridge") styledConfig false) =
        [some "bridge"] ∧
      AgreeOutside ["bridge"] [("bridge", .bool true)] [("bridge", .bool false)] ∧
      binding.edgesFor [("bridge", .bool true)] ≠ binding.edgesFor [("bridge", .bool false)] := by
  have isBound : (ChartKind.network.compile (groupedRows "bridge") styledConfig
      false).edgeBinding.isSome = true := by decide +kernel
  obtain ⟨binding, bound⟩ := Option.isSome_iff_exists.mp isBound
  have accepted : records (groupedRows "bridge") = .ok (groupedRecords "bridge") := rfl
  have styles := map_style_edges bound accepted
  refine ⟨binding, bound, by decide +kernel, fun name unlisted => ?_, fun same => ?_⟩
  · have differs : "bridge" ≠ name := fun same => unlisted (List.mem_singleton.mpr same.symm)
    simp [Members.find?, differs]
  · have lengths := congrArg List.length same
    rw [length_edgesFor, length_edgesFor, styles] at lengths
    revert lengths
    decide +kernel

end Network

end ChartCompiler
