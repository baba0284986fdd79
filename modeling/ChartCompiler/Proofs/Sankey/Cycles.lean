import ChartCompiler.Chart.Sankey.Basic
import ChartCompiler.Proofs.Ledger
import ChartCompiler.Proofs.Sankey.Search

/-!
# The links that are kept

Without the closing links a graph has no cycle.  At every moment of the search the nodes that have
been reached stand in a line: the path from its first to its innermost node, and then the nodes
that are done, last one first.  Every link that has been followed without being flagged leads
forward in that line (`Move.ordered`): entering a node inserts it between the two parts, leaving a
node moves the border between them, and the line does not change otherwise.

No link is flagged without need.  Each node of the path is joined to the next one by a kept link
(`Move.joined`), so a link back into the path closes a cycle of kept links.
-/

set_option autoImplicit false

namespace ChartCompiler.Sankey

/-! ## Cycles -/

/-- No walk along a relation leads back to where it starts. -/
def Acyclic (leads : Nat → Nat → Prop) : Prop :=
  ∀ node, ¬ Relation.TransGen leads node node

/-- All links lead from a node of the graph to a node of the graph. -/
def Within (nodeCount : Nat) (links : List (Nat × Nat)) : Prop :=
  ∀ link ∈ links, link.1 < nodeCount ∧ link.2 < nodeCount

instance (nodeCount : Nat) (links : List (Nat × Nat)) : Decidable (Within nodeCount links) :=
  inferInstanceAs (Decidable (∀ link ∈ links, link.1 < nodeCount ∧ link.2 < nodeCount))

/-- The link at a position is flagged as one that closes a cycle. -/
def Closes (nodeCount : Nat) (links : List (Nat × Nat)) (position : Nat) : Prop :=
  (closingLinks nodeCount links)[position]? = some true

instance (nodeCount : Nat) (links : List (Nat × Nat)) (position : Nat) :
    Decidable (Closes nodeCount links position) :=
  inferInstanceAs (Decidable ((closingLinks nodeCount links)[position]? = some true))

/-- A link that is not flagged leads from one node to another. -/
def Kept (nodeCount : Nat) (links : List (Nat × Nat)) (source target : Nat) : Prop :=
  ∃ position, links[position]? = some (source, target) ∧ ¬ Closes nodeCount links position

variable {links : List (Nat × Nat)}

/-- In a list without repetitions, what comes first has the smaller index. -/
theorem idxOf_lt_idxOf {line : List Nat} (nodup : line.Nodup) {first second : Nat}
    (forward : [first, second].Sublist line) : line.idxOf first < line.idxOf second := by
  obtain ⟨front, back, rfl, inFront, inBack⟩ := List.cons_sublist_iff.mp forward
  have behind : second ∈ back := List.singleton_sublist.mp inBack
  have notInFront : second ∉ front := fun early =>
    (List.nodup_append.mp nodup).2.2 second early second behind rfl
  rw [List.idxOf_append_of_mem inFront, List.idxOf_append_of_notMem notInFront]
  exact Nat.lt_of_lt_of_le (List.idxOf_lt_length_of_mem inFront) (Nat.le_add_right _ _)

/-- A relation that leads forward in a list without repetitions has no cycle. -/
theorem acyclic_of_forward {leads : Nat → Nat → Prop} {line : List Nat} (nodup : line.Nodup)
    (forward : ∀ source target, leads source target → [source, target].Sublist line) :
    Acyclic leads := by
  have later {source target : Nat} (walk : Relation.TransGen leads source target) :
      line.idxOf source < line.idxOf target := by
    induction walk with
    | single link => exact idxOf_lt_idxOf nodup (forward _ _ link)
    | tail _ link ih => exact Nat.lt_trans ih (idxOf_lt_idxOf nodup (forward _ _ link))
  exact fun node cycle => Nat.lt_irrefl _ (later cycle)

namespace Search

variable {search next : Search}

/-! ## The line of the nodes that have been reached -/

/-- The path from its first to its innermost node, and then the nodes that are done. -/
def line (search : Search) (finished : List Nat) : List Nat :=
  search.trail.reverse ++ finished

/-- The nodes that are done, last one first, complete the path to a line without repetitions. -/
structure Lined (search : Search) (finished : List Nat) : Prop where
  /-- No node stands in the line twice. -/
  nodup_line : (search.line finished).Nodup
  /-- The nodes behind the path are those that are done. -/
  mark_done : ∀ node < search.marks.length, search.mark node = .done ↔ node ∈ finished

/-- Every link that has been followed and not flagged leads forward in a line. -/
def Ordered (links : List (Nat × Nat)) (search : Search) : Prop :=
  Within search.marks.length links ∧ ∃ finished, search.Lined finished ∧
    ∀ source target, search.Keeps links source target →
      [source, target].Sublist (search.line finished)

theorem line_enter (search : Search) (finished : List Nat) (node : Nat) :
    (search.enter links node).line finished = search.trail.reverse ++ node :: finished := by
  simp [line, trail, Search.enter]

theorem line_sublist_line_enter (search : Search) (finished : List Nat) (node : Nat) :
    (search.line finished).Sublist ((search.enter links node).line finished) := by
  rw [line_enter]
  exact (List.sublist_cons_self node finished).append_left _

/-- A new node is inserted between the path and the nodes that are done. -/
theorem Lined.enter {finished : List Nat} {node : Nat} (lined : search.Lined finished)
    (valid : search.Valid links) (new : search.mark node = .new) :
    (search.enter links node).Lined finished where
  nodup_line := by
    have inside := lt_length_of_new new
    have notOnPath : node ∉ search.trail := fun onPath =>
      nomatch new.symm.trans ((valid.mark_onPath node).mpr onPath)
    have notDone : node ∉ finished := fun done =>
      nomatch new.symm.trans ((lined.mark_done node inside).mpr done)
    rw [line_enter]
    refine List.nodup_middle.mpr (List.nodup_cons.mpr ⟨?_, lined.nodup_line⟩)
    simp [notOnPath, notDone]
  mark_done := by
    intro other inside
    rw [mark_enter new]
    have size : (search.enter links node).marks.length = search.marks.length := List.length_set
    by_cases same : other = node
    · subst same
      rw [if_pos rfl, ← lined.mark_done other (size ▸ inside), new]
      decide
    · rw [if_neg same]
      exact lined.mark_done other (size ▸ inside)

/-- Leaving a node leaves the line as it is. -/
theorem Lined.leave {node : Nat} {roots flagged finished : List Nat} {marks : List Mark}
    {below : List PathEntry}
    (lined : Lined ⟨roots, marks, ⟨node, []⟩ :: below, flagged⟩ finished)
    (valid : Valid links ⟨roots, marks, ⟨node, []⟩ :: below, flagged⟩) :
    Lined ⟨roots, marks.set node .done, below, flagged⟩ (node :: finished) where
  nodup_line := by
    have nodup := lined.nodup_line
    simpa [line, trail] using nodup
  mark_done := by
    intro other inside
    have size : (marks.set node .done).length = marks.length := List.length_set
    rw [mark_leave valid]
    by_cases same : other = node
    · simp [same]
    · rw [if_neg same, lined.mark_done other (size ▸ inside), List.mem_cons]
      exact ⟨.inr, fun either => either.resolve_left same⟩

theorem innermost_sublist {node : Nat} {roots flagged pending : List Nat} {marks : List Mark}
    {below : List PathEntry} :
    [node].Sublist (trail ⟨roots, marks, ⟨node, pending⟩ :: below, flagged⟩).reverse := by
  simp [trail]

/-- A move keeps the order of the line.  The link that it follows leads forward, unless it is
flagged. -/
theorem Move.lined {finished : List Nat} (move : Move links search next)
    (valid : search.Valid links) (within : Within search.marks.length links)
    (lined : search.Lined finished) :
    ∃ later, next.Lined later ∧ (search.line finished).Sublist (next.line later) ∧
      ∀ position source target, search.next? = some position →
        links[position]? = some (source, target) → position ∉ next.flagged →
        [source, target].Sublist (next.line later) := by
  cases move with
  | skip reached =>
      exact ⟨finished, ⟨lined.nodup_line, lined.mark_done⟩, List.Sublist.refl _, nofun⟩
  | @start root roots flagged marks new =>
      have entered := lined.enter valid new
      exact ⟨finished, ⟨entered.nodup_line, entered.mark_done⟩,
        line_sublist_line_enter _ finished root, nofun⟩
  | @leave node roots flagged marks below =>
      refine ⟨node :: finished, lined.leave valid, ?_, nofun⟩
      simp [line, trail]
  | close link onPath =>
      refine ⟨finished, ⟨lined.nodup_line, lined.mark_done⟩, List.Sublist.refl _, ?_⟩
      rintro position source target ⟨⟩ _ clear
      exact absurd List.mem_cons_self clear
  | @extend node target position roots flagged pending marks below link new =>
      have taken : Lined ⟨roots, marks, ⟨node, pending⟩ :: below, flagged⟩ finished :=
        ⟨lined.nodup_line, lined.mark_done⟩
      refine ⟨finished, taken.enter (valid.take fun _ => .inl) new,
        line_sublist_line_enter _ finished target, ?_⟩
      rintro _ source _ ⟨⟩ followed _
      rw [link] at followed
      cases followed
      rw [line_enter]
      exact innermost_sublist.append (List.singleton_sublist.mpr List.mem_cons_self)
  | @pass node target position roots flagged pending marks below link done =>
      refine ⟨finished, ⟨lined.nodup_line, lined.mark_done⟩, List.Sublist.refl _, ?_⟩
      rintro _ source _ ⟨⟩ followed _
      rw [link] at followed
      cases followed
      have inside : target < marks.length := (within _ (List.mem_of_getElem? link)).2
      have behind : target ∈ finished := (lined.mark_done target inside).mp done
      exact innermost_sublist.append (List.singleton_sublist.mpr behind)

theorem Move.length_marks (move : Move links search next) :
    next.marks.length = search.marks.length := by
  cases move with
  | skip | close | pass => rfl
  | start | leave | extend => exact List.length_set

/-- Kept links lead forward after a move when they did before it. -/
theorem Move.ordered (move : Move links search next) (valid : search.Valid links)
    (ordered : search.Ordered links) : next.Ordered links := by
  obtain ⟨within, finished, lined, forward⟩ := ordered
  obtain ⟨later, linedLater, longer, followed⟩ := move.lined valid within lined
  refine ⟨move.length_marks ▸ within, later, linedLater, fun source target kept => ?_⟩
  rcases move.keeps_of_next valid kept with before | ⟨position, pending, link, clear⟩
  · exact (forward source target before).trans longer
  · exact followed position source target pending link clear

/-! ## The walk along the path -/

/-- Each node of the path is joined to the next one by a kept link, and a flagged link closes a
cycle of kept links. -/
structure Joined (links : List (Nat × Nat)) (search : Search) : Prop where
  /-- A kept link leads from each node of the path to the one inside it. -/
  chain : search.trail.IsChain fun inner outer => search.Keeps links outer inner
  /-- A walk of kept links leads from the target of a flagged link to its source. -/
  closes : ∀ position ∈ search.flagged, ∀ source target,
    links[position]? = some (source, target) →
    Relation.ReflTransGen (search.Keeps links) target source

/-- A walk leads from every node of the path to the innermost one. -/
theorem reaches_innermost {leads : Nat → Nat → Prop} {innermost node : Nat} {outer : List Nat}
    (chain : (innermost :: outer).IsChain fun inner outer => leads outer inner)
    (member : node ∈ innermost :: outer) : Relation.ReflTransGen leads node innermost := by
  induction outer generalizing innermost with
  | nil =>
      rw [List.mem_singleton.mp member]
  | cons second rest ih =>
      obtain ⟨link, chain⟩ := List.isChain_cons_cons.mp chain
      rcases List.mem_cons.mp member with rfl | outside
      · exact .refl
      · exact (ih chain outside).tail link

/-- A move keeps the path joined, and a link is flagged only when the path leads back to its
source. -/
theorem Move.joined (move : Move links search next) (valid : search.Valid links)
    (joined : search.Joined links) : next.Joined links := by
  have chain : search.trail.IsChain fun inner outer => next.Keeps links outer inner :=
    joined.chain.imp fun _ _ kept => move.keeps valid kept
  have closes : ∀ position ∈ search.flagged, ∀ source target,
      links[position]? = some (source, target) →
      Relation.ReflTransGen (next.Keeps links) target source :=
    fun position flagged source target link =>
      Relation.ReflTransGen.mono (fun _ _ => move.keeps valid) _ _
        (joined.closes position flagged source target link)
  cases move with
  | skip => exact ⟨chain, closes⟩
  | start => exact ⟨List.isChain_singleton _, closes⟩
  | leave => exact ⟨chain.tail, closes⟩
  | @close node target position roots flagged pending marks below link onPath =>
      refine ⟨chain, fun other member source target' link' => ?_⟩
      rcases List.mem_cons.mp member with rfl | before
      · rw [link] at link'
        cases link'
        exact reaches_innermost chain ((valid.mark_onPath target).mp onPath)
      · exact closes other before source target' link'
  | @extend node target position roots flagged pending marks below link new =>
      refine ⟨List.isChain_cons_cons.mpr ⟨⟨position, link, ?_, fun flag => ?_⟩, chain⟩, closes⟩
      · exact (followed_enter new position).mpr ((followed_take valid position).mpr (.inr rfl))
      · exact valid.not_followed_next rfl (valid.flagged_followed position flag)
  | pass => exact ⟨chain, closes⟩

end Search

/-! ## The links after the search -/

theorem closes_iff {nodeCount position : Nat} :
    Closes nodeCount links position ↔
      position < links.length ∧ position ∈ (searched nodeCount links).flagged := by
  rcases Nat.lt_or_ge position links.length with bound | bound
  · simp [Closes, closingLinks, bound]
  · simp [Closes, closingLinks, bound]

/-- The search follows every link, so the kept links are those that it keeps. -/
theorem keeps_iff_kept {nodeCount : Nat}
    (valid : (searched nodeCount links).Valid links)
    (finished : (searched nodeCount links).Finished)
    (source target : Nat) :
    (searched nodeCount links).Keeps links source target ↔ Kept nodeCount links source target := by
  constructor
  · rintro ⟨position, link, _, clear⟩
    exact ⟨position, link, fun closes => clear (closes_iff.mp closes).2⟩
  · rintro ⟨position, link, clear⟩
    obtain ⟨bound, _⟩ := List.getElem?_eq_some_iff.mp link
    refine ⟨position, link, ⟨⟨source, target, link, fun new => ?_⟩, ?_⟩,
      fun flagged => clear (closes_iff.mpr ⟨bound, flagged⟩)⟩
    · have root := valid.mem_roots source new
      rw [finished.2] at root
      exact nomatch root
    · rw [finished.1]
      exact nofun

/-- The kept links have no cycle. -/
theorem acyclic_kept {nodeCount : Nat} (within : Within nodeCount links) :
    Acyclic (Kept nodeCount links) := by
  have ordered : (Search.start nodeCount).Ordered links := by
    refine ⟨by simpa [Search.start] using within, [], ⟨List.nodup_nil, fun node inside => ?_⟩, ?_⟩
    · rw [Search.mark_start (by simpa [Search.start] using inside)]
      simp
    · rintro source target ⟨position, link, ⟨⟨_, _, same, reached⟩, _⟩, _⟩
      rw [link] at same
      cases same
      exact absurd (Search.mark_start (within _ (List.mem_of_getElem? link)).1) reached
  obtain ⟨valid, finished, _, done, lined, forward⟩ :=
    searched_preserves links nodeCount (fun valid move => move.ordered valid) ordered
  exact acyclic_of_forward lined.nodup_line fun source target kept =>
    forward source target ((keeps_iff_kept valid finished source target).mpr kept)

/-- A walk of kept links leads from the target of a closing link to its source. -/
theorem kept_walk_of_closes {nodeCount position source target : Nat}
    (closes : Closes nodeCount links position)
    (link : links[position]? = some (source, target)) :
    Relation.ReflTransGen (Kept nodeCount links) target source := by
  obtain ⟨valid, finished, joined⟩ :=
    searched_preserves links nodeCount (fun valid move => move.joined valid)
      ⟨List.isChain_nil, nofun⟩
  exact Relation.ReflTransGen.mono
    (fun source target => (keeps_iff_kept valid finished source target).mp) _ _
    (joined.closes position (closes_iff.mp closes).2 source target link)

/-! ## Flows -/

variable {α : Type} [Quantity α]

/-- A link of some flows leads from one node to another. -/
def Data.Leads (data : Data α) (source target : Nat) : Prop :=
  ∃ link ∈ data.links, link.source = source ∧ link.target = target

/-- The pairs of source and target in the order in which they first come up, each with the sum of
the weights of its flows in their order. -/
theorem pairs_eq (flows : List (Flow α)) :
    pairs flows =
      (distinct (flows.map fun flow => (flow.source, flow.target))).map fun ends =>
        (ends, (flows.filter fun flow => (flow.source, flow.target) = ends).foldl
          (fun sum flow => sum + flow.weight) Quantity.zero) :=
  foldl_book (fun flow : Flow α => (flow.source, flow.target)) Quantity.zero
    (fun flow sum => sum + flow.weight) flows

namespace Draft

/-- The ends of the links of a draft. -/
def ends (draft : Draft α) : List (Nat × Nat) :=
  draft.links.map fun link => (link.source, link.target)

/-- The links of a draft lead between its names. -/
theorem within_ofFlows (flows : List (Flow α)) :
    Within (ofFlows flows).names.length (ofFlows flows).ends := by
  intro link member
  simp only [ends, ofFlows, pairs_eq, List.mem_map, List.mem_filter, mem_distinct] at member
  obtain ⟨_, ⟨⟨⟨source, target⟩, value⟩, ⟨⟨_, ⟨flow, present, rfl⟩, ⟨⟩⟩, _⟩, rfl⟩, rfl⟩ := member
  have named (name : String) (named : name ∈ [flow.source, flow.target]) :
      name ∈ endpoints flows :=
    mem_distinct.mpr (List.mem_flatMap.mpr ⟨flow, present, named⟩)
  exact ⟨List.idxOf_lt_length_of_mem (named _ (by simp)),
    List.idxOf_lt_length_of_mem (named _ (by simp))⟩

omit [Quantity α] in
/-- A link that is not marked is kept. -/
theorem kept_of_mem (draft : Draft α) {link : Link α}
    (member : link ∈ (draft.marked.filter fun (_, closes) => !closes).map (·.1)) :
    (link.source, link.target) ∈ draft.ends ∧
      Kept draft.names.length draft.ends link.source link.target := by
  obtain ⟨⟨link, closes⟩, unmarked, rfl⟩ := List.mem_map.mp member
  obtain ⟨paired, clear⟩ := List.mem_filter.mp unmarked
  obtain ⟨position, found⟩ := List.mem_iff_getElem?.mp paired
  obtain ⟨atLink, atAnswer⟩ := List.getElem?_zip_eq_some.mp found
  have atEnds : draft.ends[position]? = some (link.source, link.target) := by
    rw [ends, List.getElem?_map, atLink]
    rfl
  refine ⟨List.mem_of_getElem? atEnds, position, atEnds, fun flagged => ?_⟩
  have answered := atAnswer.symm.trans flagged
  simp only [Option.some.injEq] at answered
  simp [answered] at clear

omit [Quantity α] in
/-- The flows of a draft have no cycle. -/
theorem acyclic_leads (draft : Draft α) (within : Within draft.names.length draft.ends) :
    Acyclic draft.acyclic.Leads := by
  intro node cycle
  -- A position among the nodes that are left stands for the name that it was given to.
  let used := (List.range draft.names.length).filter fun position =>
    ((draft.marked.filter fun (_, closes) => !closes).map (·.1)).any fun link =>
      link.source = position || link.target = position
  let named : Nat → Nat := fun position => (used[position]?).getD 0
  have named_idxOf {name : Nat} (member : name ∈ used) : named (used.idxOf name) = name := by
    simp [named, List.getElem?_idxOf member]
  have lifted : ∀ source target, draft.acyclic.Leads source target →
      Kept draft.names.length draft.ends (named source) (named target) := by
    rintro _ _ ⟨_, member, rfl, rfl⟩
    obtain ⟨link, present, rfl⟩ := List.mem_map.mp member
    obtain ⟨inside, kept⟩ := draft.kept_of_mem present
    obtain ⟨sourceInside, targetInside⟩ := within _ inside
    have sourceUsed : link.source ∈ used :=
      List.mem_filter.mpr ⟨List.mem_range.mpr sourceInside,
        List.any_eq_true.mpr ⟨link, present, by simp⟩⟩
    have targetUsed : link.target ∈ used :=
      List.mem_filter.mpr ⟨List.mem_range.mpr targetInside,
        List.any_eq_true.mpr ⟨link, present, by simp⟩⟩
    show Kept _ _ (named (used.idxOf link.source)) (named (used.idxOf link.target))
    rw [named_idxOf sourceUsed, named_idxOf targetUsed]
    exact kept
  exact acyclic_kept within (named node) (cycle.lift named lifted)

end Draft

/-- **Without the closing links a graph has no cycle, and the flows of records never have one.** -/
theorem kept_links_acyclic :
    (∀ (nodeCount : Nat) (links : List (Nat × Nat)), Within nodeCount links →
      Acyclic (Kept nodeCount links)) ∧
    ∀ (rows : List Record) (config : Config), Acyclic (ofRows rows config : Data α).Leads := by
  refine ⟨fun nodeCount links within => acyclic_kept within, fun rows config => ?_⟩
  rw [ofRows]
  cases state : (draft? rows config : Option (Draft α)) with
  | none =>
      intro node cycle
      obtain ⟨_, ⟨_, member, _⟩, _⟩ := Relation.TransGen.head'_iff.mp cycle
      exact nomatch member
  | some draft =>
      obtain ⟨fields, _, rfl⟩ := Option.map_eq_some_iff.mp state
      exact Draft.acyclic_leads _ (Draft.within_ofFlows _)

/-- A graph with a cycle, a self-loop and a link back from a second root. -/
theorem kept_links_acyclic_of_four :
    Within 4 [(0, 1), (1, 2), (2, 0), (2, 2), (3, 0), (1, 3)] ∧
      closingLinks 4 [(0, 1), (1, 2), (2, 0), (2, 2), (3, 0), (1, 3)] =
        [false, false, true, true, true, false] ∧
      Acyclic (Kept 4 [(0, 1), (1, 2), (2, 0), (2, 2), (3, 0), (1, 3)]) :=
  ⟨by decide, by decide, (kept_links_acyclic (α := Float)).1 _ _ (by decide)⟩

/-- **No link is flagged without need.**  A walk of kept links leads from the target of a closing
link back to its source.  So the kept links are a largest set without a cycle: each closing link
that is put back closes one, and a graph without a cycle keeps all its links. -/
theorem closing_links_close_cycles (nodeCount : Nat) (links : List (Nat × Nat))
    (within : Within nodeCount links) :
    (∀ position source target, links[position]? = some (source, target) →
      Closes nodeCount links position →
        Relation.ReflTransGen (Kept nodeCount links) target source ∧
        ¬ Acyclic fun first second =>
          Kept nodeCount links first second ∨ (first = source ∧ second = target)) ∧
    Acyclic (Kept nodeCount links) ∧
    ((Acyclic fun source target => (source, target) ∈ links) →
      ∀ position, ¬ Closes nodeCount links position) := by
  refine ⟨fun position source target link closes => ?_, acyclic_kept within, ?_⟩
  · have walk := kept_walk_of_closes closes link
    refine ⟨walk, fun acyclic => acyclic source ?_⟩
    exact .head' (.inr ⟨rfl, rfl⟩) (Relation.ReflTransGen.mono (fun _ _ => .inl) _ _ walk)
  · intro acyclic position closes
    obtain ⟨bound, _⟩ := closes_iff.mp closes
    have link : links[position]? = some (links[position].1, links[position].2) :=
      List.getElem?_eq_getElem bound
    have walk : Relation.ReflTransGen (fun source target => (source, target) ∈ links)
        links[position].2 links[position].1 :=
      Relation.ReflTransGen.mono (fun _ _ ⟨_, kept, _⟩ => List.mem_of_getElem? kept) _ _
        (kept_walk_of_closes closes link)
    exact acyclic _ (.head' (List.mem_of_getElem? link) walk)

/-- The link back to the first node closes the cycle of the two links before it. -/
theorem closing_links_close_cycles_of_three :
    Within 3 [(0, 1), (1, 2), (2, 0), (0, 2)] ∧
      Closes 3 [(0, 1), (1, 2), (2, 0), (0, 2)] 2 ∧
      Relation.ReflTransGen (Kept 3 [(0, 1), (1, 2), (2, 0), (0, 2)]) 0 2 :=
  ⟨by decide, by decide,
    ((closing_links_close_cycles 3 [(0, 1), (1, 2), (2, 0), (0, 2)] (by decide)).1 2 2 0 rfl
      (by decide)).1⟩

end ChartCompiler.Sankey
