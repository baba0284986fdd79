import ChartCompiler.Proofs.Ledger
import ChartCompiler.Proofs.Number.Exact
import ChartCompiler.Proofs.Sunburst.Paths

/-!
# The forest written down at once

A row visits a node for every beginning of its path.  The forest of some rows is determined by these
visits, in order (`insertBelow_table`).  Its nodes are the texts of the visited paths, each once and
in the order in which they first come up.  The value of a node is summed up over the visits with its
text; its name and its parent are those of the visit that came first.
-/

set_option autoImplicit false

namespace ChartCompiler.Sunburst

variable {α : Type}

/-! ## What rows visit -/

/-- A row on its way down its path. -/
structure Visit (α : Type) where
  /-- The parts of the path so far. -/
  trail : List String
  /-- The value of the row. -/
  value : α

/-- The text of the path so far. -/
def Visit.path (separator : String) (visit : Visit α) : String :=
  joined separator visit.trail

/-- The beginnings of a path, the shortest first, without the empty one. -/
def trails : List String → List (List String)
  | [] => []
  | name :: rest => [name] :: (trails rest).map (name :: ·)

theorem mem_trails {path trail : List String} :
    trail ∈ trails path ↔ trail ≠ [] ∧ trail <+: path := by
  induction path generalizing trail with
  | nil => simp [trails]
  | cons name rest ih =>
      cases trail with
      | nil => simp [trails]
      | cons first others =>
          rw [trails, List.mem_cons, List.mem_map, List.cons_prefix_cons]
          constructor
          · rintro (same | ⟨trail, member, same⟩)
            · obtain ⟨rfl, rfl⟩ := List.cons.inj same
              exact ⟨List.cons_ne_nil _ _, rfl, List.nil_prefix⟩
            · obtain ⟨rfl, rfl⟩ := List.cons.inj same
              exact ⟨List.cons_ne_nil _ _, rfl, (ih.mp member).2⟩
          · rintro ⟨-, rfl, begins⟩
            cases others with
            | nil => exact .inl rfl
            | cons second later => exact .inr ⟨_, ih.mpr ⟨List.cons_ne_nil _ _, begins⟩, rfl⟩

theorem nodup_trails (path : List String) : (trails path).Nodup := by
  induction path with
  | nil => exact List.nodup_nil
  | cons name rest ih =>
      refine List.nodup_cons.mpr ⟨fun member => ?_, ih.map (List.cons_injective)⟩
      obtain ⟨trail, begins, same⟩ := List.mem_map.mp member
      exact (mem_trails.mp begins).1 (List.cons.inj same).2

/-- The visits of a row with a path below a trail. -/
def visitsBelow (done : List String) (value : α) (path : List String) : List (Visit α) :=
  (trails path).map fun trail => { trail := done ++ trail, value }

theorem visitsBelow_cons (done : List String) (value : α) (name : String) (rest : List String) :
    visitsBelow done value (name :: rest) =
      { trail := done ++ [name], value } :: visitsBelow (done ++ [name]) value rest := by
  simp [visitsBelow, trails]

/-- The visits of some rows, in order. -/
def visits (leaves : List (List String × α)) : List (Visit α) :=
  leaves.flatMap fun leaf => visitsBelow [] leaf.2 leaf.1

/-! ## The table -/

/-- The text of a path that is not empty. -/
def place (separator : String) (trail : List String) : Option String :=
  if trail = [] then none else some (joined separator trail)

theorem place_eq_none_iff {separator : String} {trail : List String} :
    place separator trail = none ↔ trail = [] := by
  rw [place]
  split <;> simp_all

theorem place_eq_some_iff {separator text : String} {trail : List String} :
    place separator trail = some text ↔ trail ≠ [] ∧ joined separator trail = text := by
  rw [place]
  split <;> simp_all

section Table

variable (separator : String) (visits : List (Visit α))

/-- The texts of the visited paths, in the order in which they first come up. -/
def paths : List String :=
  distinct (visits.map (Visit.path separator))

/-- The path that a text came from first. -/
def origin (path : String) : List String :=
  ((visits.find? (·.path separator = path)).map Visit.trail).getD []

/-- The text of the path above a node, if the node is no root. -/
def above (path : String) : Option String :=
  place separator (origin separator visits path).dropLast

/-- The positions of the nodes below a node, or of the roots. -/
def positionsBelow (parent : Option String) : List Nat :=
  ((paths separator visits).filter fun path => above separator visits path = parent).map
    (paths separator visits).idxOf

variable [Quantity α]

/-- The node of a text after some visits. -/
def nodeOf (path : String) : Node α :=
  { name := (origin separator visits path).getLastD ""
    path
    value := Quantity.total ((visits.filter (·.path separator = path)).map Visit.value)
    children := positionsBelow separator visits (some path) }

/-- The forest of some visits, written down at once. -/
def table : Data α :=
  { nodes := (paths separator visits).map (nodeOf separator visits)
    roots := positionsBelow separator visits none }

end Table

section Append

variable {separator : String} {visits : List (Visit α)} {visit : Visit α} {path : String}
  {parent : Option String}

theorem mem_paths : path ∈ paths separator visits ↔
    ∃ visit ∈ visits, visit.path separator = path := by
  rw [paths, mem_distinct, List.mem_map]

theorem nodup_paths (separator : String) (visits : List (Visit α)) :
    (paths separator visits).Nodup :=
  nodup_distinct _

theorem paths_append_singleton : paths separator (visits ++ [visit]) =
    addNew (visit.path separator) (paths separator visits) := by
  rw [paths, List.map_append, List.map_singleton, distinct_append_singleton]
  rfl

/-- A text that has come up keeps the path that it came from. -/
theorem origin_append_of_mem (known : path ∈ paths separator visits) :
    origin separator (visits ++ [visit]) path = origin separator visits path := by
  obtain ⟨earlier, member, spelled⟩ := mem_paths.mp known
  have found : (visits.find? (·.path separator = path)).isSome := by
    rw [List.find?_isSome]
    exact ⟨earlier, member, decide_eq_true spelled⟩
  rw [origin, List.find?_append, Option.or_of_isSome found]
  rfl

theorem origin_append_of_not_mem (fresh : visit.path separator ∉ paths separator visits) :
    origin separator (visits ++ [visit]) (visit.path separator) = visit.trail := by
  have none : visits.find? (·.path separator = visit.path separator) = none := by
    refine List.find?_eq_none.mpr fun earlier member spelled => fresh ?_
    exact mem_paths.mpr ⟨earlier, member, of_decide_eq_true spelled⟩
  rw [origin, List.find?_append, none]
  simp

theorem above_append_of_mem (known : path ∈ paths separator visits) :
    above separator (visits ++ [visit]) path = above separator visits path := by
  rw [above, origin_append_of_mem known, above]

/-- A visit to a known node makes no new one. -/
theorem positionsBelow_append_of_mem (known : visit.path separator ∈ paths separator visits) :
    positionsBelow separator (visits ++ [visit]) parent =
      positionsBelow separator visits parent := by
  rw [positionsBelow, paths_append_singleton, addNew_of_mem known, positionsBelow]
  refine congrArg _ (List.filter_congr fun path member => ?_)
  rw [above_append_of_mem member]

/-- A new node comes last, below the node that its path continues. -/
theorem positionsBelow_append_of_not_mem (fresh : visit.path separator ∉ paths separator visits) :
    positionsBelow separator (visits ++ [visit]) parent =
      positionsBelow separator visits parent ++
        if place separator visit.trail.dropLast = parent then [(paths separator visits).length]
        else [] := by
  have last : above separator (visits ++ [visit]) (visit.path separator) =
      place separator visit.trail.dropLast := by
    rw [above, origin_append_of_not_mem fresh]
  have before : (paths separator visits).filter
      (fun path => above separator (visits ++ [visit]) path = parent) =
      (paths separator visits).filter fun path => above separator visits path = parent :=
    List.filter_congr fun path member => by rw [above_append_of_mem member]
  rw [positionsBelow, paths_append_singleton, addNew_of_not_mem fresh, List.filter_append,
    List.map_append, before, positionsBelow]
  congr 1
  · refine List.map_congr_left fun path member => ?_
    rw [List.idxOf_append_of_mem (List.mem_of_mem_filter member)]
  · by_cases below : place separator visit.trail.dropLast = parent
    · simp [last, below, List.idxOf_append_of_notMem fresh]
    · simp [last, below]

end Append

/-! ## Adding a visit -/

section Visiting

variable [Quantity α] {separator : String} {visits : List (Visit α)} {visit : Visit α}
  {path : String}

theorem value_append_singleton : (nodeOf separator (visits ++ [visit]) path).value =
    if path = visit.path separator then (nodeOf separator visits path).value + visit.value
    else (nodeOf separator visits path).value := by
  by_cases here : path = visit.path separator
  · subst here
    simp [nodeOf]
  · simp [nodeOf, here, Ne.symm here]

/-- A visit to a known node adds its value there. -/
theorem nodeOf_append_of_mem (visited : visit.path separator ∈ paths separator visits)
    (known : path ∈ paths separator visits) :
    nodeOf separator (visits ++ [visit]) path =
      if path = visit.path separator then (nodeOf separator visits path).grow visit.value
      else nodeOf separator visits path := by
  have fields : nodeOf separator (visits ++ [visit]) path =
      { nodeOf separator visits path with
        value := (nodeOf separator (visits ++ [visit]) path).value } := by
    simp only [nodeOf, origin_append_of_mem known, positionsBelow_append_of_mem visited]
  rw [fields, value_append_singleton]
  split <;> rfl

/-- A visit to a new node makes it a child of the node that its path continues. -/
theorem nodeOf_append_of_not_mem (fresh : visit.path separator ∉ paths separator visits)
    (known : path ∈ paths separator visits) :
    nodeOf separator (visits ++ [visit]) path =
      if place separator visit.trail.dropLast = some path then
        (nodeOf separator visits path).adopt (paths separator visits).length
      else nodeOf separator visits path := by
  have other : path ≠ visit.path separator := fun same => fresh (same ▸ known)
  have fields : nodeOf separator (visits ++ [visit]) path =
      { nodeOf separator visits path with
        value := (nodeOf separator (visits ++ [visit]) path).value
        children := positionsBelow separator (visits ++ [visit]) (some path) } := by
    simp only [nodeOf, origin_append_of_mem known]
  rw [fields, value_append_singleton, if_neg other, positionsBelow_append_of_not_mem fresh]
  split
  · rfl
  · rw [List.append_nil]
    rfl

/-- Whether the parent of every node is a node that stands before it. -/
def Closed (separator : String) (visits : List (Visit α)) : Prop :=
  ∀ path ∈ paths separator visits, ∀ parent, above separator visits path = some parent →
    parent ∈ paths separator visits ∧
      (paths separator visits).idxOf parent < (paths separator visits).idxOf path

/-- Whether the node that a path continues is there. -/
def Reached (separator : String) (visits : List (Visit α)) (done : List String) : Prop :=
  ∀ parent, place separator done = some parent → parent ∈ paths separator visits

omit [Quantity α] in
theorem Closed.append (closed : Closed separator visits)
    (reached : Reached separator visits visit.trail.dropLast) :
    Closed separator (visits ++ [visit]) := by
  intro path member parent isAbove
  rw [paths_append_singleton] at member ⊢
  by_cases known : path ∈ paths separator visits
  · rw [above_append_of_mem known] at isAbove
    obtain ⟨there, before⟩ := closed path known parent isAbove
    rw [idxOf_addNew there, idxOf_addNew known]
    exact ⟨mem_addNew.mpr (.inl there), before⟩
  · obtain rfl := (mem_addNew.mp member).resolve_left known
    rw [above, origin_append_of_not_mem known] at isAbove
    have there := reached parent isAbove
    rw [idxOf_addNew there, idxOf_addNew_self, List.idxOf_eq_length known]
    exact ⟨mem_addNew.mpr (.inl there), List.idxOf_lt_length_of_mem there⟩

/-- A new node has no children. -/
theorem nodeOf_append_fresh (closed : Closed separator visits)
    (reached : Reached separator visits visit.trail.dropLast)
    (fresh : visit.path separator ∉ paths separator visits) :
    nodeOf separator (visits ++ [visit]) (visit.path separator) =
      (Node.fresh (visit.trail.getLastD "") (visit.path separator)).grow visit.value := by
  have childless : positionsBelow separator visits (some (visit.path separator)) = [] := by
    rw [positionsBelow, List.map_eq_nil_iff, List.filter_eq_nil_iff]
    intro path member isAbove
    exact fresh (closed path member _ (of_decide_eq_true isAbove)).1
  have unvisited : visits.filter (·.path separator = visit.path separator) = [] := by
    refine List.filter_eq_nil_iff.mpr fun earlier member spelled => fresh ?_
    exact mem_paths.mpr ⟨earlier, member, of_decide_eq_true spelled⟩
  have value : (nodeOf separator (visits ++ [visit]) (visit.path separator)).value =
      Quantity.zero + visit.value := by
    rw [value_append_singleton, if_pos rfl, nodeOf, unvisited]
    rfl
  have fields : nodeOf separator (visits ++ [visit]) (visit.path separator) =
      { name := visit.trail.getLastD ""
        path := visit.path separator
        value := (nodeOf separator (visits ++ [visit]) (visit.path separator)).value
        children := [] } := by
    simp only [nodeOf, origin_append_of_not_mem fresh, positionsBelow_append_of_not_mem fresh,
      childless]
    rw [if_neg fun below => fresh (reached _ below), List.append_nil]
  rw [fields, value]
  rfl

theorem position?_table : (table separator visits).position? path =
    if path ∈ paths separator visits then some ((paths separator visits).idxOf path) else none := by
  have found : (paths separator visits).findIdx
      ((fun node : Node α => decide (node.path = path)) ∘ nodeOf separator visits) =
      (paths separator visits).idxOf path :=
    congrArg (List.findIdx · (paths separator visits))
      (funext fun name => (beq_eq_decide name path).symm)
  rw [Data.position?, table, List.findIdx?_map, List.findIdx?_eq_guard_findIdx_lt, found,
    Option.guard]
  simp only [List.idxOf_lt_length_iff, decide_eq_true_eq]

/-- A visit to a known node adds its value to the table. -/
theorem addValue_table (visited : visit.path separator ∈ paths separator visits) :
    (table separator visits).addValue ((paths separator visits).idxOf (visit.path separator))
      visit.value = table separator (visits ++ [visit]) := by
  rw [Data.addValue, table, table, positionsBelow_append_of_mem visited, paths_append_singleton,
    addNew_of_mem visited]
  refine congrArg (Data.mk · _) ?_
  show ((paths separator visits).map (nodeOf separator visits)).modify _ _ = _
  rw [modify_idxOf_map (nodup_paths _ _)]
  exact List.map_congr_left fun path known => (nodeOf_append_of_mem visited known).symm

omit [Quantity α] in
theorem modify_last (nodes : List (Node α)) (last : Node α) (change : Node α → Node α) :
    (nodes ++ [last]).modify nodes.length change = nodes ++ [change last] := by
  induction nodes with
  | nil => rfl
  | cons node rest ih => simp [ih]

/-- A visit to a new node appends it to the table. -/
theorem append_table (closed : Closed separator visits)
    (reached : Reached separator visits visit.trail.dropLast)
    (fresh : visit.path separator ∉ paths separator visits) :
    ((table separator visits).append
        ((place separator visit.trail.dropLast).map (paths separator visits).idxOf)
        (visit.trail.getLastD "") (visit.path separator)).addValue (paths separator visits).length
        visit.value =
      table separator (visits ++ [visit]) := by
  have nodes : (table separator (visits ++ [visit])).nodes =
      (paths separator visits).map (nodeOf separator (visits ++ [visit])) ++
        [(Node.fresh (visit.trail.getLastD "") (visit.path separator)).grow visit.value] := by
    rw [table, paths_append_singleton, addNew_of_not_mem fresh, List.map_append, List.map_singleton,
      nodeOf_append_fresh closed reached fresh]
  have roots : (table separator (visits ++ [visit])).roots = _ :=
    positionsBelow_append_of_not_mem fresh
  have length : (table separator visits).nodes.length = (paths separator visits).length :=
    List.length_map _
  have grown (nodes : List (Node α)) (same : nodes.length = (paths separator visits).length) :
      (nodes ++ [Node.fresh (visit.trail.getLastD "") (visit.path separator)]).modify
        (paths separator visits).length (Node.grow visit.value) = nodes ++
          [(Node.fresh (visit.trail.getLastD "") (visit.path separator)).grow visit.value] := by
    rw [← same, modify_last]
  cases below : place separator visit.trail.dropLast with
  | none =>
      have kept : (paths separator visits).map (nodeOf separator (visits ++ [visit])) =
          (table separator visits).nodes := by
        refine List.map_congr_left fun path known => ?_
        rw [nodeOf_append_of_not_mem fresh known, below]
        exact if_neg nofun
      rw [kept, ← grown _ length] at nodes
      rw [if_pos below, ← length] at roots
      exact congrArg₂ Data.mk nodes.symm roots.symm
  | some parent =>
      have adopted : (paths separator visits).map (nodeOf separator (visits ++ [visit])) =
          (table separator visits).nodes.modify ((paths separator visits).idxOf parent)
            (Node.adopt (table separator visits).nodes.length) := by
        show _ = ((paths separator visits).map (nodeOf separator visits)).modify _ _
        rw [modify_idxOf_map (nodup_paths _ _), length]
        refine List.map_congr_left fun path known => ?_
        rw [nodeOf_append_of_not_mem fresh known, below]
        simp only [Option.some.injEq, eq_comm]
      rw [adopted, ← grown _ ((List.length_modify _ _ _).trans length)] at nodes
      rw [if_neg (by rw [below]; nofun), List.append_nil] at roots
      exact congrArg₂ Data.mk nodes.symm roots.symm

/-! ## The run -/

omit [Quantity α] in
theorem reached_last : Reached separator (visits ++ [visit]) visit.trail := by
  intro parent here
  obtain ⟨-, rfl⟩ := place_eq_some_iff.mp here
  rw [paths_append_singleton, mem_addNew]
  exact .inr rfl

/-- **Inserting a path adds its visits to the forest that is written down at once.**  The descent
stands at the node of the trail that is done. -/
theorem insertBelow_table {value : α} {done rest : List String} (closed : Closed separator visits)
    (reached : Reached separator visits done) :
    (table separator visits).insertBelow separator value
        ((place separator done).map (paths separator visits).idxOf) (joined separator done) rest =
      table separator (visits ++ visitsBelow done value rest) ∧
    Closed separator (visits ++ visitsBelow done value rest) := by
  induction rest generalizing done visits with
  | nil => simpa [visitsBelow, trails, Data.insertBelow] using closed
  | cons name rest ih =>
      rw [visitsBelow_cons, List.append_cons]
      generalize first : ({ trail := done ++ [name], value } : Visit α) = visit
      have before : visit.trail.dropLast = done := by
        rw [← first]
        exact List.dropLast_concat
      have last : visit.trail.getLastD "" = name := by
        rw [← first]
        simp
      have path : Data.pathBelow separator (joined separator done) name = visit.path separator := by
        rw [← first, Visit.path, joined_append_singleton]
      have next : place separator (done ++ [name]) = some (visit.path separator) := by
        rw [← first]
        exact place_eq_some_iff.mpr ⟨List.concat_ne_nil _ _, rfl⟩
      have position : (paths separator (visits ++ [visit])).idxOf (visit.path separator) =
          (paths separator visits).idxOf (visit.path separator) := by
        rw [paths_append_singleton, idxOf_addNew_self]
      have closed' : Closed separator (visits ++ [visit]) := closed.append (before ▸ reached)
      have reached' : Reached separator (visits ++ [visit]) (done ++ [name]) := by
        rw [← first]
        exact reached_last
      have descended := ih closed' reached'
      rw [next, Option.map_some, position, joined_append_singleton, path] at descended
      have value : value = visit.value := by rw [← first]
      refine ⟨?_, descended.2⟩
      rw [← descended.1, Data.insertBelow, path, position?_table]
      by_cases visited : visit.path separator ∈ paths separator visits
      · rw [if_pos visited, value]
        simp only [addValue_table visited]
      · have appended := append_table closed (before ▸ reached) visited
        have length : (table separator visits).nodes.length =
            (paths separator visits).idxOf (visit.path separator) := by
          rw [List.idxOf_eq_length visited]
          exact List.length_map _
        rw [← List.idxOf_eq_length visited, before, last, ← length] at appended
        rw [if_neg visited, value, ← length]
        simp only [appended]

end Visiting

/-- **The forest of some rows is the table of their visits.** -/
theorem foldl_insert [Quantity α] (separator : String) (leaves : List (List String × α)) :
    leaves.foldl (fun data (path, value) => data.insert separator path value) .empty =
      table separator (visits leaves) ∧ Closed separator (visits leaves) := by
  induction leaves using List.reverseRecOn with
  | nil => exact ⟨rfl, nofun⟩
  | append_singleton leaves leaf ih =>
      obtain ⟨forest, closed⟩ := ih
      have visited : visits (leaves ++ [leaf]) = visits leaves ++ visitsBelow [] leaf.2 leaf.1 := by
        simp [visits]
      have reached : Reached separator (visits leaves) [] := nofun
      rw [List.foldl_append, List.foldl_cons, List.foldl_nil, forest, visited]
      exact insertBelow_table closed reached

end ChartCompiler.Sunburst
