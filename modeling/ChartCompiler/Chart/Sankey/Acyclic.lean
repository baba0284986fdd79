/-!
# Links that close a cycle

A layered layout needs a graph without cycles.  One depth-first search finds a set of links whose
removal leaves none: it starts from every node that is still new, in order, and follows the links
of a node in the order in which they were given.  A link that leads to a node on the current path
closes a cycle and is flagged; a link to a new node extends the path; a link to a node that is done
changes nothing.

The search is a state and a step, so that what holds at every moment of a run can be said.
-/

set_option autoImplicit false

namespace ChartCompiler.Sankey

/-- What the search knows about a node. -/
inductive Mark where
  /-- The node has not been reached. -/
  | new
  /-- The node lies on the current path. -/
  | onPath
  /-- All links of the node have been followed. -/
  | done
  deriving DecidableEq, Repr

/-- A node on the current path. -/
structure PathEntry where
  /-- The node. -/
  node : Nat
  /-- Its links that have not been followed, next one first. -/
  pending : List Nat
  deriving DecidableEq, Repr

/-- The state of the search. -/
structure Search where
  /-- The nodes that a search may still start from. -/
  roots : List Nat
  /-- The mark of each node. -/
  marks : List Mark
  /-- The current path, innermost node first. -/
  path : List PathEntry
  /-- The links that close a cycle, last found first. -/
  flagged : List Nat
  deriving DecidableEq, Repr

/-- The positions of the links that leave a node. -/
def outgoing (links : List (Nat × Nat)) (node : Nat) : List Nat :=
  (List.range links.length).filter fun position =>
    (links[position]?).any fun link => link.1 = node

namespace Search

/-- The state before the first step. -/
def start (nodeCount : Nat) : Search :=
  { roots := List.range nodeCount
    marks := List.replicate nodeCount .new
    path := []
    flagged := [] }

/-- The mark of a node; a node outside the graph counts as done. -/
def mark (search : Search) (node : Nat) : Mark :=
  search.marks.getD node .done

/-- Puts a new node at the end of the current path. -/
def enter (links : List (Nat × Nat)) (node : Nat) (search : Search) : Search :=
  { search with
    marks := search.marks.set node .onPath
    path := { node, pending := outgoing links node } :: search.path }

/-- Follows a link to its target, after it has been taken from the pending ones. -/
def follow (links : List (Nat × Nat)) (position : Nat) (search : Search) : Search :=
  match links[position]? with
  | none => search
  | some (_, target) =>
    match search.mark target with
    | .onPath => { search with flagged := position :: search.flagged }
    | .new => search.enter links target
    | .done => search

/-- One step: leave the innermost node when all its links have been followed, follow its next link
otherwise, and on an empty path look at the next root. -/
def step (links : List (Nat × Nat)) (search : Search) : Search :=
  match search.path with
  | { node, pending := [] } :: below =>
    { search with marks := search.marks.set node .done, path := below }
  | { node, pending := position :: pending } :: below =>
    { search with path := { node, pending } :: below }.follow links position
  | [] =>
    match search.roots with
    | [] => search
    | root :: roots =>
      let rest := { search with roots }
      if search.mark root = .new then rest.enter links root else rest

/-- Some number of steps. -/
def run (links : List (Nat × Nat)) : Nat → Search → Search
  | 0, search => search
  | count + 1, search => run links count (search.step links)

end Search

/-- The number of steps that a whole search takes: each node is looked at as a root and left once,
and each link is followed once. -/
def stepCount (nodeCount : Nat) (links : List (Nat × Nat)) : Nat :=
  2 * nodeCount + links.length

/-- The state at the end of the search. -/
def searched (nodeCount : Nat) (links : List (Nat × Nat)) : Search :=
  (Search.start nodeCount).run links (stepCount nodeCount links)

/-- For each link whether it closes a cycle. -/
def closingLinks (nodeCount : Nat) (links : List (Nat × Nat)) : List Bool :=
  let found := (searched nodeCount links).flagged
  (List.range links.length).map fun position => found.contains position

end ChartCompiler.Sankey
