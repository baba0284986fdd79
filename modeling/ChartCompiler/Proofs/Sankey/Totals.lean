import ChartCompiler.Proofs.Checked.Sankey
import ChartCompiler.Proofs.Number.Exact
import Mathlib.Data.Finset.Dedup

/-!
# What flows sum up

The flows of some records sum up the rows that name both ends (`ofRows_summarises_flows`).  There is
a link for each pair of names whose weights add up to more than zero, unless it closes a cycle of
the links that are kept; it carries the weights of the rows of its pair, in their order.  A node is
a name that a link leads from or to.

Indices are assigned twice: first among all names, and then among the names that have a link left.
The two steps are joined once (`ends?_linkLeft`): a link of the result leads between the names that
it was drafted for.
-/

set_option autoImplicit false

namespace ChartCompiler.Sankey

variable {α : Type}

/-! ## Rows that count -/

namespace Fields

variable [Quantity α]

/-- Whether a row names both ends of a flow. -/
def accepts (fields : Fields) (row : Record) : Bool :=
  (row.label? fields.source).isSome && (row.label? fields.target).isSome

/-- A row is read in the fields that are found.  A weight that does not read as a number counts as
zero. -/
structure Reads (fields : Fields) (row : Record) (flow : Flow α) : Prop where
  source : row.label? fields.source = some flow.source
  target : row.label? fields.target = some flow.target
  weight : flow.weight =
    ((fields.value.bind row.number?).map Quantity.ofFloat).getD Quantity.zero

/-- A row that names both ends is read. -/
theorem flow?_of_accepts {fields : Fields} {row : Record} (accepted : fields.accepts row = true) :
    ∃ flow : Flow α, flow? fields row = some flow ∧ fields.Reads row flow := by
  obtain ⟨left, right⟩ := Bool.and_eq_true_iff.mp accepted
  obtain ⟨source, fromSource⟩ := Option.isSome_iff_exists.mp left
  obtain ⟨target, toTarget⟩ := Option.isSome_iff_exists.mp right
  simp only [flow?, fromSource, toTarget]
  exact ⟨_, rfl, fromSource, toTarget, rfl⟩

/-- A row that does not name both ends is left out. -/
theorem flow?_of_not_accepts {fields : Fields} {row : Record}
    (refused : ¬ fields.accepts row = true) : (flow? fields row : Option (Flow α)) = none := by
  rw [accepts] at refused
  cases source : row.label? fields.source with
  | none => simp [flow?, source]
  | some name =>
      have missing : row.label? fields.target = none := by simpa [source] using refused
      simp [flow?, missing]

/-- Exactly the rows that name both ends are read, in their order. -/
theorem reads_flows (fields : Fields) (rows : List Record) :
    List.Forall₂ (fields.Reads (α := α)) (rows.filter fields.accepts)
      (rows.filterMap (flow? fields)) :=
  forall₂_filter_filterMap (fun _ => flow?_of_accepts) (fun _ => flow?_of_not_accepts) rows

end Fields

/-! ## Flows between two names -/

/-- The names that a flow leads from and to. -/
def Flow.ends (flow : Flow α) : String × String :=
  (flow.source, flow.target)

/-- The sum of the weights of the flows between two names, in their order. -/
def weightBetween [Quantity α] (flows : List (Flow α)) (ends : String × String) : α :=
  Quantity.total ((flows.filter (·.ends = ends)).map (·.weight))

namespace Data

/-- The names of the nodes at two positions, if both are there. -/
def named? (data : Data α) (ends : Nat × Nat) : Option (String × String) := do
  let source ← data.nodes[ends.1]?
  let target ← data.nodes[ends.2]?
  return (source, target)

/-- The names that a link leads from and to. -/
def ends? (data : Data α) (link : Link α) : Option (String × String) :=
  data.named? (link.source, link.target)

/-- A link leads from one name to another. -/
def Joins (data : Data α) (source target : String) : Prop :=
  ∃ link ∈ data.links, data.ends? link = some (source, target)

/-- The flows that are kept sum up all flows. -/
structure Summarises [Quantity α] (data : Data α) (flows : List (Flow α)) : Prop where
  /-- The nodes are ends of flows, each source before its target. -/
  nodes : SeenAmong data.nodes (flows.flatMap fun flow => [flow.source, flow.target])
  /-- No two nodes have the same name. -/
  names : data.nodes.Nodup
  /-- Both ends of a link are nodes. -/
  closed : ∀ link ∈ data.links, link.source < data.nodes.length ∧ link.target < data.nodes.length
  /-- Every node has a link. -/
  linked : ∀ position < data.nodes.length,
    ∃ link ∈ data.links, link.source = position ∨ link.target = position
  /-- The links are pairs of ends of flows. -/
  links : SeenAmong (data.links.map data.ends?) (flows.map fun flow => some flow.ends)
  /-- No two links have the same ends. -/
  apart : (data.links.map fun link => (link.source, link.target)).Nodup
  /-- What a link carries is more than nothing. -/
  positive : ∀ link ∈ data.links, Quantity.zero < link.value
  /-- A link carries the weights of the flows between its ends. -/
  value : ∀ link ∈ data.links, link.value =
    Quantity.total ((flows.filter fun flow => data.ends? link = some flow.ends).map (·.weight))
  /-- Every pair of ends with a positive sum is kept or dropped. -/
  counted : data.links.length + data.dropped =
    ((flows.map Flow.ends).toFinset.filter fun ends =>
      Quantity.zero < weightBetween flows ends).card
  /-- A pair is dropped only when links lead back from its target to its source. -/
  dropped : ∀ ends ∈ flows.map Flow.ends, Quantity.zero < weightBetween flows ends →
    data.Joins ends.1 ends.2 ∨ Relation.ReflTransGen data.Joins ends.2 ends.1

end Data

/-! ## The draft -/

section Draft

variable [Quantity α] {flows : List (Flow α)} {ends : String × String}

/-- The pairs of ends whose weights add up to more than zero. -/
def positivePairs (flows : List (Flow α)) : List (String × String) :=
  (distinct (flows.map Flow.ends)).filter fun ends =>
    decide (Quantity.zero < weightBetween flows ends)

/-- The link of a pair of ends, between positions of some names. -/
def linkOf (names : List String) (flows : List (Flow α)) (ends : String × String) : Link α :=
  { source := names.idxOf ends.1
    target := names.idxOf ends.2
    value := weightBetween flows ends }

theorem mem_positivePairs :
    ends ∈ positivePairs flows ↔
      ends ∈ flows.map Flow.ends ∧ Quantity.zero < weightBetween flows ends := by
  rw [positivePairs, List.mem_filter, mem_distinct, decide_eq_true_iff]

theorem nodup_positivePairs (flows : List (Flow α)) : (positivePairs flows).Nodup :=
  (nodup_distinct _).filter _

theorem length_positivePairs (flows : List (Flow α)) :
    (positivePairs flows).length =
      ((flows.map Flow.ends).toFinset.filter fun ends =>
        Quantity.zero < weightBetween flows ends).card := by
  rw [← List.toFinset_card_of_nodup (nodup_positivePairs flows)]
  refine congrArg Finset.card (Finset.ext fun ends => ?_)
  rw [List.mem_toFinset, mem_positivePairs, Finset.mem_filter, List.mem_toFinset]

/-- Before cycles are opened there is a link for each pair with a positive sum. -/
theorem links_ofFlows (flows : List (Flow α)) :
    (Draft.ofFlows flows).links =
      (positivePairs flows).map (linkOf (endpoints flows) flows) := by
  have sums : pairs flows = (distinct (flows.map Flow.ends)).map fun ends =>
      (ends, weightBetween flows ends) := by
    rw [pairs_eq]
    refine List.map_congr_left fun ends _ => ?_
    rw [weightBetween, Quantity.total, List.foldl_map]
    rfl
  rw [Draft.ofFlows, sums, List.filter_map, List.map_map]
  rfl

/-- The ends of a pair are names. -/
theorem mem_endpoints_of_mem_positivePairs (member : ends ∈ positivePairs flows) :
    ends.1 ∈ endpoints flows ∧ ends.2 ∈ endpoints flows := by
  obtain ⟨flow, present, rfl⟩ := List.mem_map.mp (mem_positivePairs.mp member).1
  exact ⟨mem_distinct.mpr (List.mem_flatMap.mpr ⟨flow, present, by simp [Flow.ends]⟩),
    mem_distinct.mpr (List.mem_flatMap.mpr ⟨flow, present, by simp [Flow.ends]⟩)⟩

end Draft

namespace Draft

variable {draft : Draft α}

/-- The links that are kept are links of the draft, in their order. -/
theorem kept_sublist (draft : Draft α) : (kept draft.marked).Sublist draft.links := by
  have marked : draft.marked.map (·.1) = draft.links := by
    refine List.map_fst_zip (Nat.le_of_eq ?_)
    simp [closingLinks]
  have part : (kept draft.marked).Sublist (draft.marked.map (·.1)) := List.filter_sublist.map _
  rwa [marked] at part

/-- A kept link is among the links that are kept. -/
theorem mem_kept_of_kept {source target : Nat}
    (keeps : Kept draft.names.length draft.ends source target) :
    ∃ link ∈ kept draft.marked, link.source = source ∧ link.target = target := by
  obtain ⟨position, atEnds, clear⟩ := keeps
  obtain ⟨link, atLink, ends⟩ := Option.map_eq_some_iff.mp
    ((List.getElem?_map (f := fun link : Link α => (link.source, link.target))).symm.trans atEnds)
  obtain ⟨source, target⟩ := Prod.mk.inj ends
  have inside : position < (closingLinks draft.names.length draft.ends).length := by
    simpa [closingLinks] using (List.getElem?_eq_some_iff.mp atEnds).1
  have answer : (closingLinks draft.names.length draft.ends)[position]? = some false := by
    rw [List.getElem?_eq_getElem inside, Option.some.injEq, ← Bool.not_eq_true]
    intro closes
    exact clear ((List.getElem?_eq_getElem inside).trans (congrArg some closes))
  have listed : (link, false) ∈ draft.marked :=
    List.mem_of_getElem? (List.getElem?_zip_eq_some.mpr ⟨atLink, answer⟩)
  have stays : link ∈ kept draft.marked :=
    List.mem_map.mpr ⟨(link, false), List.mem_filter.mpr ⟨listed, rfl⟩, rfl⟩
  exact ⟨link, stays, source, target⟩

/-- Every link is kept or dropped. -/
theorem length_links_add_dropped (draft : Draft α) :
    draft.acyclic.links.length + draft.acyclic.dropped = draft.links.length := by
  have marked : draft.marked.length = draft.links.length := by
    simp [Draft.marked, closingLinks]
  rw [← marked, List.length_eq_length_filter_add (·.2) (l := draft.marked), Nat.add_comm]
  refine congrArg (_ + ·) ?_
  exact (List.length_map _).trans (List.length_map _)

/-! ## Names that have a link left -/

/-- A link with its ends among the names that have a link left. -/
def renumbered (draft : Draft α) (link : Link α) : Link α :=
  { link with
    source := draft.linked.idxOf link.source, target := draft.linked.idxOf link.target }

theorem links_acyclic (draft : Draft α) :
    draft.acyclic.links = (kept draft.marked).map draft.renumbered :=
  rfl

theorem nodes_acyclic (draft : Draft α) : draft.acyclic.nodes = pick draft.linked draft.names :=
  rfl

theorem linked_inside (draft : Draft α) :
    ∀ position ∈ draft.linked, position < draft.names.length :=
  fun _ member => List.mem_range.mp (List.mem_of_mem_filter member)

/-- A name keeps its place in the order when it is renumbered. -/
theorem getElem?_nodes {position : Nat} (member : position ∈ draft.linked) :
    draft.acyclic.nodes[draft.linked.idxOf position]? = draft.names[position]? := by
  rw [nodes_acyclic, getElem?_pick draft.linked_inside, List.getElem?_idxOf member,
    Option.bind_some]

/-- Every name that is left has a link. -/
theorem exists_link_of_node {position : Nat} (inside : position < draft.acyclic.nodes.length) :
    ∃ link ∈ draft.acyclic.links, link.source = position ∨ link.target = position := by
  rw [nodes_acyclic, length_pick draft.linked_inside] at inside
  have nodup : draft.linked.Nodup := List.nodup_range.filter _
  have here := nodup.idxOf_getElem position inside
  obtain ⟨link, present, touches⟩ :=
    List.any_eq_true.mp (List.mem_filter.mp (List.getElem_mem inside)).2
  rw [Bool.or_eq_true, decide_eq_true_iff, decide_eq_true_iff] at touches
  refine ⟨draft.renumbered link, List.mem_map_of_mem present, touches.imp ?_ ?_⟩
  · intro same
    exact (congrArg draft.linked.idxOf same).trans here
  · intro same
    exact (congrArg draft.linked.idxOf same).trans here

end Draft

/-! ## The flows that are left -/

section Left

variable [Quantity α] {flows : List (Flow α)} {ends : String × String}

/-- The link of a pair of ends among the names that have a link left. -/
def linkLeft (flows : List (Flow α)) (ends : String × String) : Link α :=
  (Draft.ofFlows flows).renumbered (linkOf (endpoints flows) flows ends)

/-- A link that is kept leads between the names that it was drafted for. -/
theorem ends?_linkLeft (member : ends ∈ positivePairs flows)
    (keeps : linkOf (endpoints flows) flows ends ∈ Draft.kept (Draft.ofFlows flows).marked) :
    (Draft.ofFlows flows).acyclic.ends? (linkLeft flows ends) = some ends := by
  obtain ⟨source, target⟩ := mem_endpoints_of_mem_positivePairs member
  obtain ⟨atSource, atTarget⟩ := (Draft.kept_linked (Draft.within_ofFlows flows) keeps).2
  have start := (Draft.getElem?_nodes atSource).trans (List.getElem?_idxOf source)
  have finish := (Draft.getElem?_nodes atTarget).trans (List.getElem?_idxOf target)
  simp only [Data.ends?, Data.named?, linkLeft, Draft.renumbered, start, finish]
  rfl

/-- The links that are left stand for pairs of ends with a positive sum, in the order of the
pairs. -/
theorem exists_pairs_left (flows : List (Flow α)) :
    ∃ left : List (String × String), left.Sublist (positivePairs flows) ∧
      (Draft.ofFlows flows).acyclic.links = left.map (linkLeft flows) ∧
      ∀ ends ∈ left, (Draft.ofFlows flows).acyclic.ends? (linkLeft flows ends) = some ends := by
  have part := Draft.kept_sublist (Draft.ofFlows flows)
  rw [links_ofFlows] at part
  obtain ⟨left, part, same⟩ := List.sublist_map_iff.mp part
  refine ⟨left, part, ?_, fun ends member => ends?_linkLeft (part.mem member) ?_⟩
  · rw [Draft.links_acyclic, same, List.map_map]
    rfl
  · rw [same]
    exact List.mem_map_of_mem member

/-- A pair with a positive sum that has no link left closes a cycle. -/
theorem joins_or_returns (member : ends ∈ positivePairs flows) :
    (Draft.ofFlows flows).acyclic.Joins ends.1 ends.2 ∨
      Relation.ReflTransGen (Draft.ofFlows flows).acyclic.Joins ends.2 ends.1 := by
  let draft : Draft α := .ofFlows flows
  have nameAt {position : Nat} (inside : position < draft.names.length) :
      draft.names[position]? = some (draft.names.getD position "") := by
    rw [List.getD_eq_getElem?_getD, List.getElem?_eq_getElem inside, Option.getD_some]
  have joins : ∀ source target, Kept draft.names.length draft.ends source target →
      draft.acyclic.Joins (draft.names.getD source "") (draft.names.getD target "") := by
    intro source target keeps
    obtain ⟨link, present, rfl, rfl⟩ := Draft.mem_kept_of_kept keeps
    obtain ⟨⟨source, target⟩, atSource, atTarget⟩ :=
      Draft.kept_linked (Draft.within_ofFlows flows) present
    have start := (Draft.getElem?_nodes atSource).trans (nameAt source)
    have finish := (Draft.getElem?_nodes atTarget).trans (nameAt target)
    refine ⟨draft.renumbered link, List.mem_map_of_mem present, ?_⟩
    simp only [Data.ends?, Data.named?, Draft.renumbered, draft, start, finish]
    rfl
  have named {name : String} (known : name ∈ endpoints flows) :
      draft.names.getD (draft.names.idxOf name) "" = name := by
    have here : draft.names[draft.names.idxOf name]? = some name := List.getElem?_idxOf known
    rw [List.getD_eq_getElem?_getD, here, Option.getD_some]
  obtain ⟨source, target⟩ := mem_endpoints_of_mem_positivePairs member
  obtain ⟨position, inside, here⟩ := List.mem_iff_getElem.mp member
  have link : draft.ends[position]? =
      some (draft.names.idxOf ends.1, draft.names.idxOf ends.2) := by
    simp only [draft, Draft.ends, links_ofFlows, List.getElem?_map,
      List.getElem?_eq_getElem inside, here]
    rfl
  by_cases closes : Closes draft.names.length draft.ends position
  · have walk := (kept_walk_of_closes closes link).lift (draft.names.getD · "") joins
    rw [Function.onFun, named source, named target] at walk
    exact .inr walk
  · have join := joins _ _ ⟨position, link, closes⟩
    rw [named source, named target] at join
    exact .inl join

/-- **The flows that are left sum up all flows.** -/
theorem summarises_acyclic (flows : List (Flow α)) :
    (Draft.ofFlows flows).acyclic.Summarises flows := by
  obtain ⟨left, part, links, named⟩ := exists_pairs_left flows
  have nodes : SeenAmong (Draft.ofFlows flows).acyclic.nodes
      (flows.flatMap fun flow => [flow.source, flow.target]) :=
    (firstSeen_distinct _).sublist (pick_sublist List.filter_sublist)
  have pairs : (Draft.ofFlows flows).acyclic.links.map (Draft.ofFlows flows).acyclic.ends? =
      left.map some := by
    rw [links, List.map_map]
    exact List.map_congr_left named
  have seen : SeenAmong (left.map some) (flows.map fun flow => some flow.ends) := by
    have renamed := distinct_map (Option.some_injective _) (flows.map Flow.ends)
    rw [List.map_map] at renamed
    have all : FirstSeen ((distinct (flows.map Flow.ends)).map some)
        (flows.map fun flow => some flow.ends) := renamed ▸ firstSeen_distinct _
    exact all.sublist ((part.trans List.filter_sublist).map some)
  have known : ∀ link ∈ (Draft.ofFlows flows).acyclic.links, ∃ ends ∈ positivePairs flows,
      (Draft.ofFlows flows).acyclic.ends? link = some ends ∧
        link.value = weightBetween flows ends := by
    intro link member
    rw [links] at member
    obtain ⟨ends, present, rfl⟩ := List.mem_map.mp member
    exact ⟨ends, part.mem present, named ends present, rfl⟩
  constructor
  case nodes => exact nodes
  case names => exact nodes.nodup
  case closed =>
    intro link member
    obtain ⟨ends, -, same, -⟩ := known link member
    obtain ⟨source, atSource, same⟩ := Option.bind_eq_some_iff.mp same
    obtain ⟨target, atTarget, -⟩ := Option.bind_eq_some_iff.mp same
    exact ⟨(List.getElem?_eq_some_iff.mp atSource).1, (List.getElem?_eq_some_iff.mp atTarget).1⟩
  case linked => exact fun position inside => Draft.exists_link_of_node inside
  case links =>
    rw [pairs]
    exact seen
  case apart =>
    -- Links with the same indices have the same names, and no pair of names comes twice.
    refine List.Nodup.of_map (Draft.ofFlows flows).acyclic.named? ?_
    rw [List.map_map]
    exact pairs ▸ seen.nodup
  case positive =>
    intro link member
    obtain ⟨ends, positive, -, value⟩ := known link member
    rw [value]
    exact (mem_positivePairs.mp positive).2
  case value =>
    intro link member
    obtain ⟨ends, -, same, value⟩ := known link member
    rw [value, same, weightBetween]
    simp only [Option.some.injEq, eq_comm (a := ends)]
  case counted =>
    rw [Draft.length_links_add_dropped, links_ofFlows, List.length_map, length_positivePairs]
  case dropped =>
    exact fun ends present positive => joins_or_returns (mem_positivePairs.mpr ⟨present, positive⟩)

end Left

/-! ## The flows of some records -/

/-- **The flows of some records sum up the rows that name both ends.** -/
theorem ofRows_summarises_flows [Quantity α] {rows : List Record} {config : Config}
    {fields : Fields} (resolved : fields? rows config = some fields) :
    ∃ flows : List (Flow α),
      List.Forall₂ fields.Reads (rows.filter fields.accepts) flows ∧
        (ofRows rows config).Summarises flows := by
  refine ⟨rows.filterMap (flow? fields), fields.reads_flows rows, ?_⟩
  rw [ofRows, draft?, resolved]
  exact summarises_acyclic _

/-- Two flows in a circle and a loop, a pair whose weights cancel out, a weight that does not read
as a number, and a row without a target. -/
def circleRecords : List Record :=
  [[("source", .string "left"), ("target", .string "right"), ("value", 2)],
    [("source", .string "right"), ("target", .string "left"), ("value", 1)],
    [("source", .string "left"), ("target", .string "right"), ("value", .string "much")],
    [("source", .string "left"), ("target", .string "left"), ("value", 3)],
    [("source", .string "left"), ("target", .string "far"), ("value", 1)],
    [("source", .string "left"), ("target", .string "far"), ("value", .string "-1")],
    [("source", .string "left")]]

/-- Only the first flow is left: its way back and the loop are dropped, and the pair without a
positive sum does not count. -/
theorem ofRows_summarises_flows_of_circle :
    (∃ fields, fields? circleRecords {} = some fields ∧
      (circleRecords.filter fields.accepts).length = 6 ∧
        ∃ flows : List (Flow Float),
          List.Forall₂ fields.Reads (circleRecords.filter fields.accepts) flows ∧
            (ofRows circleRecords {}).Summarises flows) ∧
      (ofRows circleRecords {} : Data Float).nodes = ["left", "right"] ∧
      (ofRows circleRecords {} : Data Float).links.map
        (fun link => (link.source, link.target, link.value)) = [(0, 1, 2)] ∧
      (ofRows circleRecords {} : Data Float).dropped = 2 :=
  ⟨⟨_, rfl, by decide, ofRows_summarises_flows rfl⟩, by decide +kernel, by decide +kernel,
    by decide +kernel⟩

end ChartCompiler.Sankey
