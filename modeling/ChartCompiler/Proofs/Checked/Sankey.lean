import ChartCompiler.Proofs.Axis.Alignment
import ChartCompiler.Proofs.Checked.Scalar
import ChartCompiler.Proofs.Checked.Search
import ChartCompiler.Proofs.Pivot.Display

/-!
# Flows with their checks

Names are replaced by their positions as soon as they come up, and the weights are added up by pairs
of positions.  When names that have no link left are taken away, every other name gets a new
position; the ends of a link that is kept are among these, so their new positions have been filled
in when the links are renumbered.
-/

set_option autoImplicit false

namespace ChartCompiler

/-- Accounts can be renamed before or after an entry is booked. -/
theorem book_map_key {κ ν β : Type} [DecidableEq κ] [DecidableEq ν] {rename : κ → ν} {key : κ}
    {accounts : List (κ × β)}
    (injective : ∀ account ∈ accounts, rename account.1 = rename key → account.1 = key)
    (fresh : β) (update : β → β) :
    book (rename key) fresh update (accounts.map (Prod.map rename id)) =
      (book key fresh update accounts).map (Prod.map rename id) := by
  induction accounts with
  | nil => rfl
  | cons account rest ih =>
      obtain ⟨name, amount⟩ := account
      rw [List.forall_mem_cons] at injective
      by_cases same : name = key
      · subst same
        simp [book]
      · have apart : rename name ≠ rename key := fun equal => same (injective.1 equal)
        simp only [List.map_cons, Prod.map_apply, id_eq, book, if_neg same, if_neg apart,
          ih injective.2]

namespace Sankey

variable {α : Type} [Quantity α]

/-! ## Names and pairs -/

/-- Adds up the weights of the flows by the positions of their ends. -/
def sumsChecked (flows : List (Flow α)) : Checked (List String × List ((Nat × Nat) × α)) :=
  flows.foldlM
    (fun (names, sums) flow => do
      let (source, names) ← Checked.intern flow.source names
      let (target, names) ← Checked.intern flow.target names
      let sums ← Checked.post (source, target) Quantity.zero (· + flow.weight) sums
      return (names, sums))
    ([], [])

/-- The positions of a pair of names. -/
def placed (names : List String) (ends : String × String) : Nat × Nat :=
  (names.idxOf ends.1, names.idxOf ends.2)

omit [Quantity α] in
theorem endpoints_append_singleton (flows : List (Flow α)) (flow : Flow α) :
    endpoints (flows ++ [flow]) = addNew flow.target (addNew flow.source (endpoints flows)) := by
  have ends : (flows ++ [flow]).flatMap (fun flow => [flow.source, flow.target]) =
      flows.flatMap (fun flow => [flow.source, flow.target]) ++ [flow.source] ++ [flow.target] := by
    simp
  rw [endpoints, ends, distinct_append_singleton, distinct_append_singleton, endpoints]

theorem pairs_append_singleton (flows : List (Flow α)) (flow : Flow α) :
    pairs (flows ++ [flow]) =
      book (flow.source, flow.target) Quantity.zero (· + flow.weight) (pairs flows) := by
  rw [pairs, List.foldl_append]
  rfl

/-- The ends of a pair are endpoints. -/
theorem mem_endpoints {flows : List (Flow α)} {pair : (String × String) × α}
    (member : pair ∈ pairs flows) :
    pair.1.1 ∈ endpoints flows ∧ pair.1.2 ∈ endpoints flows := by
  rw [pairs_eq] at member
  obtain ⟨ends, known, rfl⟩ := List.mem_map.mp member
  obtain ⟨flow, present, rfl⟩ := List.mem_map.mp (mem_distinct.mp known)
  exact ⟨mem_distinct.mpr (List.mem_flatMap.mpr ⟨flow, present, by simp⟩),
    mem_distinct.mpr (List.mem_flatMap.mpr ⟨flow, present, by simp⟩)⟩

/-- Adding up by positions is adding up by names. -/
theorem sumsChecked_eq (flows : List (Flow α)) :
    sumsChecked flows =
      pure (endpoints flows, (pairs flows).map (Prod.map (placed (endpoints flows)) id)) := by
  induction flows using List.reverseRecOn with
  | nil => rfl
  | append_singleton flows flow ih =>
      let names := addNew flow.target (addNew flow.source (endpoints flows))
      have source : names.idxOf flow.source = (endpoints flows).idxOf flow.source := by
        rw [idxOf_addNew (mem_addNew.mpr (.inr rfl)), idxOf_addNew_self]
      have target : names.idxOf flow.target =
          (addNew flow.source (endpoints flows)).idxOf flow.target :=
        idxOf_addNew_self _ _
      -- Names that are known keep their positions.
      have kept : (pairs flows).map (Prod.map (placed (endpoints flows)) id) =
          (pairs flows).map (Prod.map (placed names) id) := by
        refine List.map_congr_left fun pair member => Prod.ext (Prod.ext ?_ ?_) rfl
        · have known := (mem_endpoints member).1
          exact ((idxOf_addNew (mem_addNew.mpr (.inl known))).trans (idxOf_addNew known)).symm
        · have known := (mem_endpoints member).2
          exact ((idxOf_addNew (mem_addNew.mpr (.inl known))).trans (idxOf_addNew known)).symm
      have apart : ∀ pair ∈ pairs flows,
          placed names pair.1 = placed names (flow.source, flow.target) →
            pair.1 = (flow.source, flow.target) := by
        intro pair member same
        have known (name : String) (member : name ∈ endpoints flows) : name ∈ names :=
          mem_addNew.mpr (.inl (mem_addNew.mpr (.inl member)))
        obtain ⟨same, same'⟩ := Prod.mk.inj same
        exact Prod.ext ((List.idxOf_inj (known _ (mem_endpoints member).1)).mp same)
          ((List.idxOf_inj (known _ (mem_endpoints member).2)).mp same')
      have booked := book_map_key apart Quantity.zero (· + flow.weight)
      rw [sumsChecked] at ih
      rw [sumsChecked, List.foldlM_append, ih, pure_bind]
      simp only [List.foldlM_cons, List.foldlM_nil, Checked.intern_eq, Checked.post_eq, pure_bind]
      rw [endpoints_append_singleton, pairs_append_singleton, kept, ← source, ← target]
      exact congrArg (fun sums => pure (names, sums)) booked

namespace Draft

def ofFlowsChecked (flows : List (Flow α)) : Checked (Draft α) := do
  let (names, sums) ← sumsChecked flows
  let positive := sums.filter fun (_, value) => decide (Quantity.zero < value)
  return { names
           links := positive.map fun ((source, target), value) => { source, target, value } }

theorem ofFlowsChecked_eq (flows : List (Flow α)) :
    ofFlowsChecked flows = pure (ofFlows flows) := by
  rw [ofFlowsChecked, sumsChecked_eq, pure_bind, ofFlows]
  simp only [List.filter_map, List.map_map]
  rfl

/-! ## Links that close a cycle -/

/-- The notice about a link that is left out. -/
def noticeChecked (draft : Draft α) (link : Link α) : Checked Notice := do
  let source ← Checked.item draft.names link.source
  let target ← Checked.item draft.names link.target
  return .warn ("sankey: dropping link " ++ source ++ " -> " ++ target ++
    " that would form a cycle")

/-- Which names have a link. -/
def usedChecked (count : Nat) (links : List (Link α)) : Checked (List Bool) :=
  (links.flatMap fun link => [link.source, link.target]).foldlM
    (fun used position => Checked.put used position true) (List.replicate count false)

/-- The names that are used, and the new positions of all names. -/
def placesChecked (names : List String) (used : List Bool) :
    Checked (List String × List (Option Nat)) :=
  names.zipIdx.foldlM
    (fun (nodes, places) (name, position) => do
      if ← Checked.item used position then
        let places ← Checked.put places position (some nodes.length)
        return (nodes ++ [name], places)
      else return (nodes, places))
    ([], List.replicate names.length none)

/-- Gives the ends of a link their new positions. -/
def renumberedChecked (places : List (Option Nat)) (link : Link α) : Checked (Link α) := do
  let source ← Checked.filled (← Checked.item places link.source)
  let target ← Checked.filled (← Checked.item places link.target)
  return { link with source, target }

def markedChecked (draft : Draft α) : Checked (List (Link α × Bool)) := do
  return draft.links.zip (← closingLinksChecked draft.names.length draft.ends)

/-- The links that do not close a cycle. -/
def kept (marked : List (Link α × Bool)) : List (Link α) :=
  (marked.filter fun (_, closes) => !closes).map (·.1)

def acyclicChecked (draft : Draft α) : Checked (Data α) := do
  let marked ← draft.markedChecked
  let notices ← (marked.filter (·.2)).mapM fun entry => draft.noticeChecked entry.1
  let used ← usedChecked draft.names.length (kept marked)
  let (nodes, places) ← placesChecked draft.names used
  let links ← (kept marked).mapM (renumberedChecked places)
  return { nodes, links, dropped := notices.length }

omit [Quantity α] in
theorem usedChecked_eq {count : Nat} {links : List (Link α)}
    (inside : ∀ link ∈ links, link.source < count ∧ link.target < count) :
    usedChecked count links = pure ((List.range count).map fun position =>
      links.any fun link => link.source = position || link.target = position) := by
  have ends : ∀ position ∈ links.flatMap fun link => [link.source, link.target],
      position < count := by
    intro position member
    obtain ⟨link, present, atEnd⟩ := List.mem_flatMap.mp member
    rcases List.mem_pair.mp atEnd with rfl | rfl
    · exact (inside link present).1
    · exact (inside link present).2
  rw [usedChecked, Checked.foldlM_put_true ends]
  refine congrArg pure (List.map_congr_left fun position _ => Bool.eq_iff_iff.mpr ?_)
  simp only [List.contains_iff_mem, List.mem_flatMap, List.mem_pair, List.any_eq_true,
    Bool.or_eq_true, decide_eq_true_eq, eq_comm (a := position)]

/-- The new position of a name, if it has one. -/
def placeIn (chosen : List Nat) (position : Nat) : Option Nat :=
  if position ∈ chosen then some (chosen.idxOf position) else none

theorem placeIn_append_singleton {chosen : List Nat} {last : Nat} (new : last ∉ chosen) :
    placeIn (chosen ++ [last]) = fun position =>
      if last = position then some chosen.length else placeIn chosen position := by
  funext position
  by_cases known : position ∈ chosen
  · have apart : last ≠ position := fun same => new (same ▸ known)
    simp [placeIn, known, apart, List.idxOf_append_of_mem]
  · by_cases same : last = position
    · subst same
      simp [placeIn, List.idxOf_append_of_notMem known]
    · simp [placeIn, known, same, Ne.symm same]

/-- More items do not change those that are picked among the first ones. -/
theorem pick_append_left {β : Type} {order : List Nat} {items : List β}
    (inside : ∀ position ∈ order, position < items.length) (more : List β) :
    pick order (items ++ more) = pick order items :=
  List.filterMap_congr fun position member => List.getElem?_append_left (inside position member)

theorem placesChecked_eq (names : List String) (flag : Nat → Bool) :
    placesChecked names ((List.range names.length).map flag) =
      pure (pick ((List.range names.length).filter flag) names,
        (List.range names.length).map (placeIn ((List.range names.length).filter flag))) := by
  have general (count : Nat) (fits : names.length ≤ count) :
      names.zipIdx.foldlM
          (fun (state : List String × List (Option Nat)) (entry : String × Nat) => do
            if ← Checked.item ((List.range count).map flag) entry.2 then
              let places ← Checked.put state.2 entry.2 (some state.1.length)
              return (state.1 ++ [entry.1], places)
            else return (state.1, state.2))
          ([], (List.range count).map fun _ => none) =
        pure (pick ((List.range names.length).filter flag) names,
          (List.range count).map (placeIn ((List.range names.length).filter flag))) := by
    induction names using List.reverseRecOn with
    | nil => rfl
    | append_singleton names name ih =>
        rw [List.length_append, List.length_singleton] at fits
        have inside : ∀ position ∈ (List.range names.length).filter flag,
            position < names.length := fun position member =>
          List.mem_range.mp (List.mem_of_mem_filter member)
        rw [List.zipIdx_append, List.foldlM_append, ih (Nat.le_of_succ_le fits), pure_bind]
        simp only [List.zipIdx_singleton, List.foldlM_cons, List.foldlM_nil, Nat.zero_add,
          Checked.item_table fits, pure_bind, List.length_append, List.length_singleton,
          List.range_succ, List.filter_append]
        generalize (List.range names.length).filter flag = chosen at inside
        have earlier := pick_append_left inside [name]
        have new : names.length ∉ chosen := fun member => Nat.lt_irrefl _ (inside _ member)
        cases chooses : flag names.length with
        | false => simp [chooses, earlier]
        | true =>
            have last : pick (chosen ++ [names.length]) (names ++ [name]) =
                pick chosen names ++ [name] := by
              rw [← earlier]
              simp [pick]
            simp only [if_true, Checked.put_table fits, pure_bind, length_pick inside]
            simp [chooses, last, placeIn_append_singleton new]
  rw [placesChecked, Checked.replicate_eq_map_range]
  exact general names.length (Nat.le_refl _)

section Kept

variable {draft : Draft α}

omit [Quantity α]

theorem markedChecked_eq (within : Within draft.names.length draft.ends) :
    draft.markedChecked = pure draft.marked := by
  rw [markedChecked, closingLinksChecked_eq within, pure_bind]
  rfl

/-- The ends of the links of a draft are names. -/
theorem noticeChecked_eq (within : Within draft.names.length draft.ends) {link : Link α}
    (member : link ∈ draft.links) :
    draft.noticeChecked link = pure (.warn ("sankey: dropping link " ++
      draft.names.getD link.source "" ++ " -> " ++ draft.names.getD link.target "" ++
      " that would form a cycle")) := by
  have ends := within _ (List.mem_map_of_mem member)
  rw [noticeChecked, Checked.item_getD ends.1 "", pure_bind, Checked.item_getD ends.2 "",
    pure_bind]

/-- The names that still have a link. -/
def linked (draft : Draft α) : List Nat :=
  (List.range draft.names.length).filter fun position =>
    (kept draft.marked).any fun link => link.source = position || link.target = position

/-- The ends of the links that are kept are names that still have a link. -/
theorem kept_linked (within : Within draft.names.length draft.ends) {link : Link α}
    (member : link ∈ kept draft.marked) :
    (link.source < draft.names.length ∧ link.target < draft.names.length) ∧
      link.source ∈ draft.linked ∧ link.target ∈ draft.linked := by
  have inside : link.source < draft.names.length ∧ link.target < draft.names.length :=
    within _ (draft.kept_of_mem member).1
  refine ⟨inside, List.mem_filter.mpr ⟨List.mem_range.mpr inside.1, ?_⟩,
    List.mem_filter.mpr ⟨List.mem_range.mpr inside.2, ?_⟩⟩
  · exact List.any_eq_true.mpr ⟨link, member, by simp⟩
  · exact List.any_eq_true.mpr ⟨link, member, by simp⟩

/-- The new positions of names that have a link have been filled in. -/
theorem renumberedChecked_eq {count : Nat} {chosen : List Nat} {link : Link α}
    (inside : link.source < count ∧ link.target < count)
    (known : link.source ∈ chosen ∧ link.target ∈ chosen) :
    renumberedChecked ((List.range count).map (placeIn chosen)) link =
      pure { link with
        source := chosen.idxOf link.source, target := chosen.idxOf link.target } := by
  simp only [renumberedChecked, Checked.item_table inside.1, Checked.item_table inside.2,
    pure_bind, placeIn, known, if_true]
  rfl

theorem acyclicChecked_eq (within : Within draft.names.length draft.ends) :
    draft.acyclicChecked = pure draft.acyclic := by
  have notices := Checked.mapM_eq fun (entry : Link α × Bool)
      (member : entry ∈ draft.marked.filter (·.2)) =>
    noticeChecked_eq within (List.of_mem_zip (List.mem_of_mem_filter member)).1
  have links := Checked.mapM_eq fun link (member : link ∈ kept draft.marked) =>
    renumberedChecked_eq (kept_linked within member).1 (kept_linked within member).2
  rw [acyclicChecked, markedChecked_eq within, pure_bind, notices, pure_bind,
    usedChecked_eq fun link member => (kept_linked within member).1, pure_bind,
    placesChecked_eq, pure_bind]
  show (do
      let links ← (kept draft.marked).mapM
        (renumberedChecked ((List.range draft.names.length).map (placeIn draft.linked)))
      pure ({ nodes := pick draft.linked draft.names, links, dropped := _ } : Data α)) = _
  rw [links, pure_bind, List.length_map]
  rfl

end Kept

end Draft

def ofRowsChecked (rows : List Record) (config : Config) : Checked (Data α) :=
  match fields? rows config with
  | none => pure { nodes := [], links := [], dropped := 0 }
  | some fields => do
    let draft ← Draft.ofFlowsChecked (rows.filterMap (flow? fields))
    draft.acyclicChecked

theorem ofRowsChecked_eq (rows : List Record) (config : Config) :
    ofRowsChecked rows config = (pure (ofRows rows config) : Checked (Data α)) := by
  rw [ofRowsChecked, ofRows, draft?]
  cases fields? rows config with
  | none => rfl
  | some fields =>
      simp only [Draft.ofFlowsChecked_eq, pure_bind, Option.map_some]
      exact Draft.acyclicChecked_eq (Draft.within_ofFlows _)

/-- The links lead between nodes. -/
def Data.Closed (data : Data α) : Prop :=
  ∀ link ∈ data.links, link.source < data.nodes.length ∧ link.target < data.nodes.length

theorem closed_ofRows (rows : List Record) (config : Config) :
    (ofRows rows config : Data α).Closed := by
  rw [ofRows]
  cases state : (draft? rows config : Option (Draft α)) with
  | none =>
      intro link member
      cases member
  | some draft =>
      obtain ⟨fields, -, rfl⟩ := Option.map_eq_some_iff.mp state
      let draft : Draft α := .ofFlows (rows.filterMap (flow? fields))
      have nodes : (pick draft.linked draft.names).length = draft.linked.length :=
        length_pick fun position member => List.mem_range.mp (List.mem_of_mem_filter member)
      intro link member
      obtain ⟨link, present, rfl⟩ := List.mem_map.mp member
      have linked := (Draft.kept_linked (Draft.within_ofFlows _) present).2
      show draft.linked.idxOf link.source < (pick draft.linked draft.names).length ∧
        draft.linked.idxOf link.target < (pick draft.linked draft.names).length
      rw [nodes]
      exact ⟨List.idxOf_lt_length_of_mem linked.1, List.idxOf_lt_length_of_mem linked.2⟩

/-! ## The option -/

/-- What flows into each node and out of it, collected in one pass over the links. -/
def flowsChecked (data : Data α) : Checked (List (α × α)) :=
  data.links.foldlM
    (fun flows link => do
      let flows ← Checked.change flows link.target fun (into, out) => (into + link.value, out)
      Checked.change flows link.source fun (into, out) => (into, out + link.value))
    (List.replicate data.nodes.length (Quantity.zero, Quantity.zero))

theorem flowsChecked_eq {data : Data α} (closed : data.Closed) :
    flowsChecked data = pure ((List.range data.nodes.length).map fun node =>
      (inflow data node, outflow data node)) := by
  have general (count : Nat) (flow : Nat → α × α) {links : List (Link α)}
      (inside : ∀ link ∈ links, link.source < count ∧ link.target < count) :
      links.foldlM (fun flows link => do
          let flows ← Checked.change flows link.target fun (into, out) => (into + link.value, out)
          Checked.change flows link.source fun (into, out) => (into, out + link.value))
          ((List.range count).map flow) =
        pure ((List.range count).map fun node =>
          (((links.filter fun link => link.target = node).map (·.value)).foldl (· + ·)
              (flow node).1,
            ((links.filter fun link => link.source = node).map (·.value)).foldl (· + ·)
              (flow node).2)) := by
    induction links generalizing flow with
    | nil => rfl
    | cons link rest ih =>
        rw [List.forall_mem_cons] at inside
        rw [List.foldlM_cons, Checked.change_table inside.1.2, pure_bind,
          Checked.change_table inside.1.1, pure_bind, ih _ inside.2]
        refine congrArg pure (List.map_congr_left fun node _ => ?_)
        by_cases source : link.source = node <;> by_cases target : link.target = node <;>
          simp [source, target]
  rw [flowsChecked, Checked.replicate_eq_map_range, general _ _ closed]
  rfl

/-- The options of the nodes, with their checks. -/
def nodesChecked (data : Data Float) (writer : TooltipWriter) (colors : List String) :
    Checked (List Json) := do
  let flows ← flowsChecked data
  data.nodes.zipIdx.mapM fun (name, position) => do
    let (into, out) ← Checked.item flows position
    let color ← Checked.item colors position
    return nodeItem writer name color into out

/-- The options of the links, with their checks. -/
def linksChecked (data : Data Float) (writer : TooltipWriter) : Checked (List Json) :=
  data.links.mapM fun link => do
    let source ← Checked.item data.nodes link.source
    let target ← Checked.item data.nodes link.target
    return linkItem writer source target link.value

def optionChecked (data : Data Float) (config : Config) (dark : Bool) : Checked (Option Json) :=
  if data.links.isEmpty then pure none
  else do
    let writer := TooltipWriter.forMode (ValueFormatter.ofConfig config) dark
    let colors ← config.seriesColorsChecked data.nodes.length dark
    let nodes ← nodesChecked data writer colors
    let links ← linksChecked data writer
    return some (around nodes links config dark)

section Option

variable {data : Data Float}

theorem nodesChecked_eq (closed : data.Closed) (writer : TooltipWriter) {colors : List String}
    (colored : colors.length = data.nodes.length) :
    nodesChecked data writer colors =
      pure ((data.nodes.zip colors).zipIdx.map fun ((name, color), position) =>
        nodeItem writer name color (inflow data position) (outflow data position)) := by
  rw [nodesChecked, flowsChecked_eq closed, pure_bind]
  refine Checked.mapM_ext _ (by simp [colored]) fun position here here' => ?_
  have inside : position < data.nodes.length := by simpa using here
  have color : position < colors.length := colored ▸ inside
  simp only [List.getElem_zipIdx, List.getElem_map, List.getElem_zip, Nat.zero_add,
    Checked.item_table inside, Checked.item_of_lt color, pure_bind]

theorem linksChecked_eq (closed : data.Closed) (writer : TooltipWriter) :
    linksChecked data writer =
      pure (data.links.map fun link => linkItem writer (data.nodes.getD link.source "")
        (data.nodes.getD link.target "") link.value) := by
  refine Checked.mapM_eq fun link member => ?_
  have inside := closed link member
  rw [Checked.item_getD inside.1 "", pure_bind, Checked.item_getD inside.2 "", pure_bind]

theorem optionChecked_eq (closed : data.Closed) (config : Config) (dark : Bool) :
    optionChecked data config dark = pure (option? data config dark) := by
  simp only [optionChecked, option?, Config.seriesColorsChecked_eq, pure_bind,
    nodesChecked_eq closed _ (length_seriesColors config _ dark), linksChecked_eq closed]
  split <;> rfl

end Option

end Sankey

end ChartCompiler
