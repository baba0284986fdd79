import ChartCompiler.Proofs.Checked.Operation
import ChartCompiler.Proofs.Sankey.Cycles

/-!
# The depth-first search with its checks

The search looks up the links of a node in a table, marks nodes, and follows links by position.  The
links lead between nodes, there is a mark for each node, and every moment of the search is valid, so
whatever is looked up is there.  The number of steps is enough for the search to end.
-/

set_option autoImplicit false

namespace ChartCompiler.Sankey

variable {links : List (Nat × Nat)} {nodeCount : Nat}

/-! ## The links of all nodes -/

/-- The links that leave each node, collected in one pass. -/
def outgoingTable (nodeCount : Nat) (links : List (Nat × Nat)) : Checked (List (List Nat)) :=
  links.zipIdx.foldlM
    (fun table (link, position) => Checked.change table link.1 (· ++ [position]))
    (List.replicate nodeCount [])

theorem outgoing_append_singleton (links : List (Nat × Nat)) (link : Nat × Nat) (node : Nat) :
    outgoing (links ++ [link]) node =
      if link.1 = node then outgoing links node ++ [links.length] else outgoing links node := by
  have earlier : (List.range links.length).filter (fun position =>
      ((links ++ [link])[position]?).any fun link => link.1 = node) = outgoing links node := by
    refine List.filter_congr fun position member => ?_
    rw [List.getElem?_append_left (List.mem_range.mp member)]
  rw [outgoing, List.length_append, List.length_singleton, List.range_succ, List.filter_append,
    earlier]
  by_cases same : link.1 = node <;> simp [same]

theorem outgoingTable_eq (within : Within nodeCount links) :
    outgoingTable nodeCount links = pure ((List.range nodeCount).map (outgoing links)) := by
  induction links using List.reverseRecOn with
  | nil => exact congrArg pure (Checked.replicate_eq_map_range nodeCount [])
  | append_singleton links link ih =>
      have before : Within nodeCount links := fun other member =>
        within other (List.mem_append_left _ member)
      have inside : link.1 < nodeCount :=
        (within link (List.mem_append_right _ (List.mem_singleton_self link))).1
      have collected := ih before
      rw [outgoingTable] at collected
      rw [outgoingTable, List.zipIdx_append, List.foldlM_append, collected, pure_bind]
      simp only [List.zipIdx_singleton, List.foldlM_cons, Checked.change_table inside, pure_bind,
        List.foldlM_nil, Nat.zero_add]
      refine congrArg pure (List.map_congr_left fun node _ => ?_)
      exact (outgoing_append_singleton links link node).symm

/-! ## Steps -/

namespace Search

variable {search next : Search}

def enterChecked (table : List (List Nat)) (node : Nat) (search : Search) : Checked Search := do
  let marks ← Checked.put search.marks node .onPath
  let pending ← Checked.item table node
  return { search with marks, path := { node, pending } :: search.path }

def followChecked (table : List (List Nat)) (links : List (Nat × Nat)) (position : Nat)
    (search : Search) : Checked Search := do
  let (_, target) ← Checked.item links position
  match ← Checked.item search.marks target with
  | .onPath => return { search with flagged := position :: search.flagged }
  | .new => search.enterChecked table target
  | .done => return search

def stepChecked (table : List (List Nat)) (links : List (Nat × Nat)) (search : Search) :
    Checked Search :=
  match search.path with
  | { node, pending := [] } :: below => do
    let marks ← Checked.put search.marks node .done
    return { search with marks, path := below }
  | { node, pending := position :: pending } :: below =>
    { search with path := { node, pending } :: below }.followChecked table links position
  | [] =>
    match search.roots with
    | [] => pure search
    | root :: roots => do
      let rest := { search with roots }
      if (← Checked.item search.marks root) = .new then rest.enterChecked table root
      else return rest

/-- There is a mark for each node, and the roots are nodes. -/
structure Covers (search : Search) (nodeCount : Nat) : Prop where
  marks : search.marks.length = nodeCount
  roots : ∀ root ∈ search.roots, root < nodeCount

theorem covers_start (nodeCount : Nat) : (start nodeCount).Covers nodeCount :=
  ⟨List.length_replicate, fun _ => List.mem_range.mp⟩

theorem Move.covers (move : Move links search next) (covers : search.Covers nodeCount) :
    next.Covers nodeCount := by
  refine ⟨move.length_marks.trans covers.marks, fun root member => covers.roots root ?_⟩
  cases move with
  | skip | start => exact List.mem_cons_of_mem _ member
  | leave | close | extend | pass => exact member

theorem item_marks (covers : search.Covers nodeCount) {node : Nat} (inside : node < nodeCount) :
    Checked.item search.marks node = pure (search.mark node) :=
  Checked.item_getD (covers.marks.symm ▸ inside) .done

theorem enterChecked_eq (covers : search.Covers nodeCount) {node : Nat}
    (inside : node < nodeCount) :
    search.enterChecked ((List.range nodeCount).map (outgoing links)) node =
      pure (search.enter links node) := by
  rw [enterChecked, Checked.put_eq (covers.marks.symm ▸ inside), pure_bind,
    Checked.item_table inside, pure_bind]
  rfl

theorem followChecked_eq (within : Within nodeCount links) (covers : search.Covers nodeCount)
    {position source target : Nat} (link : links[position]? = some (source, target)) :
    search.followChecked ((List.range nodeCount).map (outgoing links)) links position =
      pure (search.follow links position) := by
  have inside : target < nodeCount := (within _ (List.mem_of_getElem? link)).2
  simp only [followChecked, follow, Checked.item_eq link, link, pure_bind,
    item_marks covers inside]
  cases search.mark target with
  | new => exact enterChecked_eq covers inside
  | onPath => rfl
  | done => rfl

/-- A step looks up nothing that is not there. -/
theorem stepChecked_eq (within : Within nodeCount links) (valid : search.Valid links)
    (covers : search.Covers nodeCount) :
    search.stepChecked ((List.range nodeCount).map (outgoing links)) links =
      pure (search.step links) := by
  obtain ⟨roots, marks, path, flagged⟩ := search
  match path, roots with
  | ⟨node, []⟩ :: below, _ =>
      simp only [stepChecked, step, Checked.put_eq valid.innermost_lt_length, pure_bind]
  | ⟨node, position :: pending⟩ :: below, roots =>
      obtain ⟨target, link⟩ := valid.link_of_pending
      have taken : Covers ⟨roots, marks, ⟨node, pending⟩ :: below, flagged⟩ nodeCount :=
        ⟨covers.marks, covers.roots⟩
      exact followChecked_eq within taken link
  | [], [] => rfl
  | [], root :: roots =>
      have inside := covers.roots root List.mem_cons_self
      have rest : Covers ⟨roots, marks, [], flagged⟩ nodeCount :=
        ⟨covers.marks, fun other member => covers.roots other (List.mem_cons_of_mem _ member)⟩
      simp only [stepChecked, step, item_marks covers inside, pure_bind,
        enterChecked_eq rest inside]
      split <;> rfl

/-! ## Runs -/

def runChecked (table : List (List Nat)) (links : List (Nat × Nat)) :
    Nat → Search → Checked Search
  | 0, search => pure search
  | count + 1, search => do runChecked table links count (← search.stepChecked table links)

theorem runChecked_eq (within : Within nodeCount links) (count : Nat)
    (valid : search.Valid links) (covers : search.Covers nodeCount) :
    search.runChecked ((List.range nodeCount).map (outgoing links)) links count =
      pure (search.run links count) := by
  induction count generalizing search with
  | zero => rfl
  | succ count ih =>
      rw [runChecked, stepChecked_eq within valid covers, pure_bind, run]
      rcases move_of_step valid with move | ⟨-, still⟩
      · exact ih (move.valid valid) (move.covers covers)
      · rw [still]
        exact ih valid covers

end Search

/-- `searched` with its checks; it fails when the search has not come to its end. -/
def searchedChecked (nodeCount : Nat) (links : List (Nat × Nat)) : Checked Search := do
  let table ← outgoingTable nodeCount links
  let found ← (Search.start nodeCount).runChecked table links (stepCount nodeCount links)
  if found.path = [] ∧ found.roots = [] then return found else throw .depth

theorem searchedChecked_eq (within : Within nodeCount links) :
    searchedChecked nodeCount links = pure (searched nodeCount links) := by
  have valid := Search.valid_start nodeCount links
  have finished := Search.run_finished _ valid (Search.remaining_start_le nodeCount links)
  rw [searchedChecked, outgoingTable_eq within, pure_bind,
    Search.runChecked_eq within _ valid (Search.covers_start nodeCount), pure_bind]
  exact if_pos finished

/-! ## Flags -/

def closingLinksChecked (nodeCount : Nat) (links : List (Nat × Nat)) : Checked (List Bool) := do
  let found ← searchedChecked nodeCount links
  found.flagged.foldlM (fun flags position => Checked.put flags position true)
    (List.replicate links.length false)

theorem closingLinksChecked_eq (within : Within nodeCount links) :
    closingLinksChecked nodeCount links = pure (closingLinks nodeCount links) := by
  have inside : ∀ position ∈ (searched nodeCount links).flagged, position < links.length := by
    intro position flagged
    obtain ⟨valid, -⟩ := searched_preserves (motive := fun _ => True) links nodeCount
      (fun _ _ _ => trivial) trivial
    obtain ⟨⟨source, target, link, -⟩, -⟩ := valid.flagged_followed position flagged
    exact (List.getElem?_eq_some_iff.mp link).1
  rw [closingLinksChecked, searchedChecked_eq within, pure_bind, Checked.foldlM_put_true inside]
  rfl

end ChartCompiler.Sankey
