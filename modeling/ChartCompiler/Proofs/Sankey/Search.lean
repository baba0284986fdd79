import ChartCompiler.Chart.Sankey.Acyclic
import Mathlib.Algebra.BigOperators.Group.Finset.Piecewise
import Mathlib.Algebra.Group.Action.Defs
import Mathlib.Algebra.Order.BigOperators.Group.Finset
import Mathlib.Data.List.Infix
import Mathlib.Logic.Relation

/-!
# The moves of the depth-first search

A step of the search is one of six moves, or the search is at its end (`move_of_step`).  What holds
throughout a run is said of one move and carried along the run once (`run_preserves`).

A link has been *followed* when its source has been reached and no node on the path has it
pending.  A move follows at most one link, the next pending one of the innermost node
(`Move.followed_iff`), so a link that has been followed without being flagged is never flagged
later (`Move.keeps`).

Every move uses up one unit of `remaining`, and the bound on the number of steps is at least what a
new search has to do.  So a whole search ends with an empty path and no roots
(`searched_preserves`).
-/

set_option autoImplicit false

namespace ChartCompiler.Sankey

variable {links : List (Nat × Nat)}

/-! ## The links of a node -/

theorem mem_outgoing {position node : Nat} :
    position ∈ outgoing links node ↔ ∃ target, links[position]? = some (node, target) := by
  simp only [outgoing, List.mem_filter, List.mem_range, Option.any_eq_true, decide_eq_true_eq]
  constructor
  · rintro ⟨_, ⟨source, target⟩, found, rfl⟩
    exact ⟨target, found⟩
  · rintro ⟨target, found⟩
    obtain ⟨bound, _⟩ := List.getElem?_eq_some_iff.mp found
    exact ⟨bound, (node, target), found, rfl⟩

theorem nodup_outgoing (links : List (Nat × Nat)) (node : Nat) : (outgoing links node).Nodup :=
  List.nodup_range.filter _

theorem length_outgoing (links : List (Nat × Nat)) (node : Nat) :
    (outgoing links node).length = links.countP fun link => link.1 = node := by
  have listed : (List.range links.length).map (links[·]?) = links.map some := by
    refine List.ext_getElem? fun position => ?_
    rcases Nat.lt_or_ge position links.length with bound | bound
    · simp [bound]
    · simp [bound]
  have counted := congrArg (List.countP (Option.any fun link => decide (link.1 = node))) listed
  rw [List.countP_map, List.countP_map] at counted
  rw [outgoing, ← List.countP_eq_length_filter]
  exact counted

/-- Each link that leaves a node of the graph leaves one of them. -/
theorem sum_length_outgoing (nodeCount : Nat) (links : List (Nat × Nat)) :
    ∑ node ∈ Finset.range nodeCount, (outgoing links node).length =
      links.countP fun link => link.1 < nodeCount := by
  simp only [length_outgoing]
  induction links with
  | nil => simp
  | cons link rest ih =>
      have single : ∑ node ∈ Finset.range nodeCount, (if link.1 = node then 1 else 0) =
          if link.1 < nodeCount then 1 else 0 := by
        simp only [Finset.sum_ite_eq, Finset.mem_range]
      simp only [List.countP_cons, decide_eq_true_eq, Finset.sum_add_distrib, ih, single]

namespace Search

variable {search next : Search}

/-! ## Marks -/

theorem mark_eq_done_of_length_le {node : Nat} (outside : search.marks.length ≤ node) :
    search.mark node = .done := by
  simp [mark, outside]

/-- Only nodes of the graph are new. -/
theorem lt_length_of_new {node : Nat} (new : search.mark node = .new) :
    node < search.marks.length := by
  by_contra outside
  rw [mark_eq_done_of_length_le (by omega)] at new
  cases new

/-- Setting the mark of a node of the graph changes that mark only. -/
theorem getD_set {marks : List Mark} {node : Nat} (inside : node < marks.length) (given : Mark)
    (other : Nat) :
    (marks.set node given).getD other .done =
      if other = node then given else marks.getD other .done := by
  by_cases same : other = node
  · subst same
    simp [inside]
  · simp [same, Ne.symm same]

theorem mark_enter {node : Nat} (new : search.mark node = .new) (other : Nat) :
    (search.enter links node).mark other =
      if other = node then .onPath else search.mark other :=
  getD_set (lt_length_of_new new) .onPath other

/-! ## Moves -/

/-- The nodes on the path, innermost first. -/
def trail (search : Search) : List Nat :=
  search.path.map (·.node)

/-- The next link that the search follows. -/
def next? (search : Search) : Option Nat :=
  search.path.head?.bind (·.pending.head?)

/-- A search that has nothing left to do. -/
def Finished (search : Search) : Prop :=
  search.path = [] ∧ search.roots = []

/-- One move of the search. -/
inductive Move (links : List (Nat × Nat)) : Search → Search → Prop where
  /-- Passes over a root that has been reached already. -/
  | skip {root : Nat} {roots flagged : List Nat} {marks : List Mark}
      (reached : mark ⟨roots, marks, [], flagged⟩ root ≠ .new) :
      Move links ⟨root :: roots, marks, [], flagged⟩ ⟨roots, marks, [], flagged⟩
  /-- Starts a path from a new root. -/
  | start {root : Nat} {roots flagged : List Nat} {marks : List Mark}
      (new : mark ⟨roots, marks, [], flagged⟩ root = .new) :
      Move links ⟨root :: roots, marks, [], flagged⟩
        (enter links root ⟨roots, marks, [], flagged⟩)
  /-- Leaves the innermost node. -/
  | leave {node : Nat} {roots flagged : List Nat} {marks : List Mark} {below : List PathEntry} :
      Move links ⟨roots, marks, ⟨node, []⟩ :: below, flagged⟩
        ⟨roots, marks.set node .done, below, flagged⟩
  /-- Follows a link to a node on the path, and flags it. -/
  | close {node target position : Nat} {roots flagged pending : List Nat} {marks : List Mark}
      {below : List PathEntry} (link : links[position]? = some (node, target))
      (onPath : mark ⟨roots, marks, ⟨node, pending⟩ :: below, flagged⟩ target = .onPath) :
      Move links ⟨roots, marks, ⟨node, position :: pending⟩ :: below, flagged⟩
        ⟨roots, marks, ⟨node, pending⟩ :: below, position :: flagged⟩
  /-- Follows a link to a new node. -/
  | extend {node target position : Nat} {roots flagged pending : List Nat} {marks : List Mark}
      {below : List PathEntry} (link : links[position]? = some (node, target))
      (new : mark ⟨roots, marks, ⟨node, pending⟩ :: below, flagged⟩ target = .new) :
      Move links ⟨roots, marks, ⟨node, position :: pending⟩ :: below, flagged⟩
        (enter links target ⟨roots, marks, ⟨node, pending⟩ :: below, flagged⟩)
  /-- Follows a link to a node that is done. -/
  | pass {node target position : Nat} {roots flagged pending : List Nat} {marks : List Mark}
      {below : List PathEntry} (link : links[position]? = some (node, target))
      (done : mark ⟨roots, marks, ⟨node, pending⟩ :: below, flagged⟩ target = .done) :
      Move links ⟨roots, marks, ⟨node, position :: pending⟩ :: below, flagged⟩
        ⟨roots, marks, ⟨node, pending⟩ :: below, flagged⟩

/-! ## What every moment of a run has in common -/

/-- The link at a position has been followed: its source has been reached, and no node on the path
has it pending. -/
def Followed (links : List (Nat × Nat)) (search : Search) (position : Nat) : Prop :=
  (∃ source target, links[position]? = some (source, target) ∧ search.mark source ≠ .new) ∧
    ∀ entry ∈ search.path, position ∉ entry.pending

/-- A link that has been followed and not flagged leads from one node to another. -/
def Keeps (links : List (Nat × Nat)) (search : Search) (source target : Nat) : Prop :=
  ∃ position, links[position]? = some (source, target) ∧ search.Followed links position ∧
    position ∉ search.flagged

/-- What the marks, the path and the flags have to do with each other at every moment. -/
structure Valid (links : List (Nat × Nat)) (search : Search) : Prop where
  /-- No node is on the path twice. -/
  nodup_trail : search.trail.Nodup
  /-- The nodes on the path are those that are marked so. -/
  mark_onPath : ∀ node, search.mark node = .onPath ↔ node ∈ search.trail
  /-- The pending links of a node are its last links, in order. -/
  pending_outgoing : ∀ entry ∈ search.path, entry.pending <:+ outgoing links entry.node
  /-- A node that has not been reached is a root still. -/
  mem_roots : ∀ node, search.mark node = .new → node ∈ search.roots
  /-- Only links that have been followed are flagged. -/
  flagged_followed : ∀ position ∈ search.flagged, search.Followed links position

/-- A step is a move, unless the search is at its end. -/
theorem move_of_step (valid : search.Valid links) :
    Move links search (search.step links) ∨
      search.Finished ∧ search.step links = search := by
  obtain ⟨roots, marks, path, flagged⟩ := search
  match path, roots with
  | [], [] => exact .inr ⟨⟨rfl, rfl⟩, rfl⟩
  | [], root :: roots =>
      left
      by_cases new : mark ⟨roots, marks, [], flagged⟩ root = .new
      · have entered : step links ⟨root :: roots, marks, [], flagged⟩ =
            enter links root ⟨roots, marks, [], flagged⟩ := if_pos new
        exact entered ▸ .start new
      · have passed : step links ⟨root :: roots, marks, [], flagged⟩ =
            ⟨roots, marks, [], flagged⟩ := if_neg new
        exact passed ▸ .skip new
  | ⟨node, []⟩ :: below, _ => exact .inl .leave
  | ⟨node, position :: pending⟩ :: below, roots =>
      left
      have member : position ∈ outgoing links node :=
        (valid.pending_outgoing _ List.mem_cons_self).subset List.mem_cons_self
      obtain ⟨target, link⟩ := mem_outgoing.mp member
      show Move links _ (follow links position ⟨roots, marks, ⟨node, pending⟩ :: below, flagged⟩)
      cases state : mark ⟨roots, marks, ⟨node, pending⟩ :: below, flagged⟩ target with
      | new =>
          simp only [follow, link, state]
          exact .extend link state
      | onPath =>
          simp only [follow, link, state]
          exact .close link state
      | done =>
          simp only [follow, link, state]
          exact .pass link state

/-! ## Following links -/

/-- Entering a new node follows no link. -/
theorem followed_enter {node : Nat} (new : search.mark node = .new) (position : Nat) :
    (search.enter links node).Followed links position ↔ search.Followed links position := by
  constructor
  · rintro ⟨⟨source, target, link, reached⟩, absent⟩
    have apart : source ≠ node := by
      rintro rfl
      exact absent _ List.mem_cons_self (mem_outgoing.mpr ⟨target, link⟩)
    rw [mark_enter new, if_neg apart] at reached
    exact ⟨⟨source, target, link, reached⟩,
      fun entry member => absent entry (List.mem_cons_of_mem _ member)⟩
  · rintro ⟨⟨source, target, link, reached⟩, absent⟩
    have apart : source ≠ node := by
      rintro rfl
      exact reached new
    refine ⟨⟨source, target, link, ?_⟩, fun entry member => ?_⟩
    · rw [mark_enter new, if_neg apart]
      exact reached
    · rcases List.mem_cons.mp member with rfl | below
      · intro pending
        obtain ⟨_, other⟩ := mem_outgoing.mp pending
        rw [link] at other
        cases other
        exact apart rfl
      · exact absent entry below

section Path

variable {roots flagged marked pending : List Nat} {marks : List Mark} {below : List PathEntry}
  {node position : Nat}

/-- The innermost node is on the path. -/
theorem Valid.mark_innermost
    (valid : Valid links ⟨roots, marks, ⟨node, pending⟩ :: below, flagged⟩) :
    mark ⟨roots, marks, ⟨node, pending⟩ :: below, flagged⟩ node = .onPath :=
  (valid.mark_onPath node).mpr List.mem_cons_self

/-- The innermost node is a node of the graph. -/
theorem Valid.innermost_lt_length
    (valid : Valid links ⟨roots, marks, ⟨node, pending⟩ :: below, flagged⟩) :
    node < marks.length := by
  by_contra outside
  exact nomatch (mark_eq_done_of_length_le (Nat.le_of_not_lt outside)).symm.trans
    valid.mark_innermost

/-- A pending link leaves its node. -/
theorem Valid.link_of_pending
    (valid : Valid links ⟨roots, marks, ⟨node, position :: pending⟩ :: below, flagged⟩) :
    ∃ target, links[position]? = some (node, target) :=
  mem_outgoing.mp ((valid.pending_outgoing _ List.mem_cons_self).subset List.mem_cons_self)

/-- Only one node has a link pending, and only once. -/
theorem Valid.pending_once
    (valid : Valid links ⟨roots, marks, ⟨node, position :: pending⟩ :: below, flagged⟩) :
    position ∉ pending ∧ ∀ entry ∈ below, position ∉ entry.pending := by
  have ordered : (position :: pending).Nodup :=
    (nodup_outgoing links node).sublist
      (valid.pending_outgoing _ List.mem_cons_self).sublist
  refine ⟨(List.nodup_cons.mp ordered).1, fun entry member twice => ?_⟩
  obtain ⟨target, link⟩ := valid.link_of_pending
  have suffix := valid.pending_outgoing entry (List.mem_cons_of_mem _ member)
  obtain ⟨_, other⟩ := mem_outgoing.mp (suffix.subset twice)
  have same : node = entry.node := by
    rw [link] at other
    cases other
    rfl
  exact (List.nodup_cons.mp valid.nodup_trail).1
    (List.mem_map.mpr ⟨entry, member, same.symm⟩)

/-- Taking the next link from the pending ones follows that link and no other one. -/
theorem followed_take
    (valid : Valid links ⟨roots, marks, ⟨node, position :: pending⟩ :: below, flagged⟩)
    (other : Nat) :
    Followed links ⟨roots, marks, ⟨node, pending⟩ :: below, marked⟩ other ↔
      Followed links ⟨roots, marks, ⟨node, position :: pending⟩ :: below, flagged⟩ other ∨
        other = position := by
  constructor
  · rintro ⟨reached, absent⟩
    by_cases same : other = position
    · exact .inr same
    · refine .inl ⟨reached, fun entry member => ?_⟩
      rcases List.mem_cons.mp member with rfl | outer
      · rw [List.mem_cons, not_or]
        exact ⟨same, absent _ List.mem_cons_self⟩
      · exact absent entry (List.mem_cons_of_mem _ outer)
  · rintro (⟨reached, absent⟩ | rfl)
    · refine ⟨reached, fun entry member => ?_⟩
      rcases List.mem_cons.mp member with rfl | outer
      · exact fun kept => absent _ List.mem_cons_self (List.mem_cons_of_mem _ kept)
      · exact absent entry (List.mem_cons_of_mem _ outer)
    · obtain ⟨target, link⟩ := valid.link_of_pending
      have reached : mark ⟨roots, marks, ⟨node, pending⟩ :: below, marked⟩ node ≠ .new :=
        fun new => nomatch valid.mark_innermost.symm.trans new
      refine ⟨⟨node, target, link, reached⟩, fun entry member => ?_⟩
      rcases List.mem_cons.mp member with rfl | outer
      · exact valid.pending_once.1
      · exact valid.pending_once.2 entry outer

/-- Leaving a node marks it as done. -/
theorem mark_leave (valid : Valid links ⟨roots, marks, ⟨node, []⟩ :: below, flagged⟩)
    (other : Nat) :
    mark ⟨roots, marks.set node .done, below, flagged⟩ other =
      if other = node then .done
      else mark ⟨roots, marks, ⟨node, []⟩ :: below, flagged⟩ other :=
  getD_set valid.innermost_lt_length .done other

/-- Leaving a node follows no link. -/
theorem followed_leave (valid : Valid links ⟨roots, marks, ⟨node, []⟩ :: below, flagged⟩)
    (other : Nat) :
    Followed links ⟨roots, marks.set node .done, below, flagged⟩ other ↔
      Followed links ⟨roots, marks, ⟨node, []⟩ :: below, flagged⟩ other := by
  have unchanged (source : Nat) :
      mark ⟨roots, marks.set node .done, below, flagged⟩ source ≠ .new ↔
        mark ⟨roots, marks, ⟨node, []⟩ :: below, flagged⟩ source ≠ .new := by
    rw [mark_leave valid]
    by_cases same : source = node
    · subst same
      simp [valid.mark_innermost]
    · simp [same]
  simp only [Followed, unchanged, List.mem_cons, forall_eq_or_imp, List.not_mem_nil,
    not_false_eq_true, true_and]

end Path

/-- A move follows the next link, if it follows one. -/
theorem Move.followed_iff (move : Move links search next) (valid : search.Valid links)
    (position : Nat) :
    next.Followed links position ↔
      search.Followed links position ∨ search.next? = some position := by
  cases move with
  | skip reached => exact ⟨.inl, fun followed => followed.resolve_right nofun⟩
  | start new =>
      rw [followed_enter new]
      exact ⟨.inl, fun followed => followed.resolve_right nofun⟩
  | leave =>
      rw [followed_leave valid]
      exact ⟨.inl, fun followed => followed.resolve_right nofun⟩
  | close link onPath =>
      rw [followed_take valid]
      simp [next?, eq_comm]
  | extend link new =>
      rw [followed_enter new, followed_take valid]
      simp [next?, eq_comm]
  | pass link done =>
      rw [followed_take valid]
      simp [next?, eq_comm]

/-- A link that is pending has not been followed. -/
theorem Valid.not_followed_next (valid : search.Valid links) {position : Nat}
    (pending : search.next? = some position) : ¬ search.Followed links position := by
  obtain ⟨roots, marks, path, flagged⟩ := search
  match path, pending with
  | ⟨node, [first]⟩ :: below, rfl => exact fun followed => followed.2 _ List.mem_cons_self (by simp)
  | ⟨node, first :: _ :: _⟩ :: below, rfl =>
      exact fun followed => followed.2 _ List.mem_cons_self (by simp)

/-- A move flags the next link or none. -/
theorem Move.flagged_subset (move : Move links search next) {position : Nat}
    (flagged : position ∈ next.flagged) :
    position ∈ search.flagged ∨ search.next? = some position := by
  cases move with
  | skip | start | leave | extend | pass => exact .inl flagged
  | close =>
      rcases List.mem_cons.mp flagged with rfl | before
      · exact .inr rfl
      · exact .inl before

/-- A move takes no flag back. -/
theorem Move.flagged_mono (move : Move links search next) {position : Nat}
    (flagged : position ∈ search.flagged) : position ∈ next.flagged := by
  cases move with
  | skip | start | leave | extend | pass => exact flagged
  | close => exact List.mem_cons_of_mem _ flagged

/-- What has been followed without a flag is never flagged. -/
theorem Move.keeps (move : Move links search next) (valid : search.Valid links)
    {source target : Nat} (kept : search.Keeps links source target) :
    next.Keeps links source target := by
  obtain ⟨position, link, followed, clear⟩ := kept
  refine ⟨position, link, (move.followed_iff valid position).mpr (.inl followed), ?_⟩
  intro flagged
  rcases move.flagged_subset flagged with before | pending
  · exact clear before
  · exact valid.not_followed_next pending followed

/-- What a move adds to the kept links is the link that it follows. -/
theorem Move.keeps_of_next (move : Move links search next) (valid : search.Valid links)
    {source target : Nat} (kept : next.Keeps links source target) :
    search.Keeps links source target ∨
      ∃ position, search.next? = some position ∧ links[position]? = some (source, target) ∧
        position ∉ next.flagged := by
  obtain ⟨position, link, followed, clear⟩ := kept
  rcases (move.followed_iff valid position).mp followed with before | pending
  · exact .inl ⟨position, link, before, fun flagged => clear (move.flagged_mono flagged)⟩
  · exact .inr ⟨position, pending, link, clear⟩

/-! ## Every moment is valid -/

/-- A root that has been reached may be forgotten. -/
theorem Valid.forget_root {root : Nat} {roots marked : List Nat} {marks : List Mark}
    {path : List PathEntry} (valid : Valid links ⟨root :: roots, marks, path, marked⟩)
    (reached : mark ⟨roots, marks, path, marked⟩ root ≠ .new) :
    Valid links ⟨roots, marks, path, marked⟩ where
  nodup_trail := valid.nodup_trail
  mark_onPath := valid.mark_onPath
  pending_outgoing := valid.pending_outgoing
  mem_roots := by
    intro node new
    rcases List.mem_cons.mp (valid.mem_roots node new) with rfl | later
    · exact absurd new reached
    · exact later
  flagged_followed := valid.flagged_followed

theorem Valid.enter {node : Nat} (valid : search.Valid links) (new : search.mark node = .new) :
    (search.enter links node).Valid links where
  nodup_trail := by
    refine List.nodup_cons.mpr ⟨fun onPath => ?_, valid.nodup_trail⟩
    exact nomatch new.symm.trans ((valid.mark_onPath node).mpr onPath)
  mark_onPath := by
    intro other
    rw [mark_enter new]
    by_cases same : other = node
    · simp [same, trail, Search.enter]
    · rw [if_neg same, valid.mark_onPath]
      simp [same, trail, Search.enter]
  pending_outgoing := by
    intro entry member
    rcases List.mem_cons.mp member with rfl | below
    · exact List.suffix_rfl
    · exact valid.pending_outgoing entry below
  mem_roots := by
    intro other unreached
    rw [mark_enter new] at unreached
    split at unreached
    · cases unreached
    · exact valid.mem_roots other unreached
  flagged_followed := fun position flagged =>
    (followed_enter new position).mpr (valid.flagged_followed position flagged)

section Path

variable {roots flagged marked pending : List Nat} {marks : List Mark} {below : List PathEntry}
  {node position : Nat}

theorem Valid.take
    (valid : Valid links ⟨roots, marks, ⟨node, position :: pending⟩ :: below, flagged⟩)
    (known : ∀ other ∈ marked, other ∈ flagged ∨ other = position) :
    Valid links ⟨roots, marks, ⟨node, pending⟩ :: below, marked⟩ where
  nodup_trail := valid.nodup_trail
  mark_onPath := valid.mark_onPath
  pending_outgoing := by
    intro entry member
    rcases List.mem_cons.mp member with rfl | outer
    · exact (List.suffix_cons position pending).trans
        (valid.pending_outgoing _ List.mem_cons_self)
    · exact valid.pending_outgoing entry (List.mem_cons_of_mem _ outer)
  mem_roots := valid.mem_roots
  flagged_followed := by
    intro other flag
    refine (followed_take valid other).mpr ?_
    exact (known other flag).imp_left (valid.flagged_followed other)

theorem Valid.leave (valid : Valid links ⟨roots, marks, ⟨node, []⟩ :: below, flagged⟩) :
    Valid links ⟨roots, marks.set node .done, below, flagged⟩ where
  nodup_trail := (List.nodup_cons.mp valid.nodup_trail).2
  mark_onPath := by
    intro other
    rw [mark_leave valid]
    by_cases same : other = node
    · subst same
      simpa [trail] using (List.nodup_cons.mp valid.nodup_trail).1
    · rw [if_neg same, valid.mark_onPath]
      simp [trail, same]
  pending_outgoing := fun entry member =>
    valid.pending_outgoing entry (List.mem_cons_of_mem _ member)
  mem_roots := by
    intro other unreached
    rw [mark_leave valid] at unreached
    split at unreached
    · cases unreached
    · exact valid.mem_roots other unreached
  flagged_followed := fun other flag =>
    (followed_leave valid other).mpr (valid.flagged_followed other flag)

end Path

/-- A move leads from a valid moment to a valid moment. -/
theorem Move.valid (move : Move links search next) (valid : search.Valid links) :
    next.Valid links := by
  cases move with
  | skip reached => exact valid.forget_root reached
  | @start root roots flagged marks new =>
      have entered : Valid links (Search.enter links root ⟨root :: roots, marks, [], flagged⟩) :=
        valid.enter new
      refine Valid.forget_root entered ?_
      show mark (Search.enter links root ⟨roots, marks, [], flagged⟩) root ≠ .new
      rw [mark_enter new, if_pos rfl]
      decide
  | leave => exact valid.leave
  | close link onPath =>
      exact valid.take fun other member => (List.mem_cons.mp member).symm
  | extend link new => exact (valid.take fun _ => .inl).enter new
  | pass link done => exact valid.take fun _ => .inl

/-- No node has been reached before the first step. -/
theorem mark_start {nodeCount node : Nat} (inside : node < nodeCount) :
    (start nodeCount).mark node = .new := by
  simp [start, mark, inside]

/-- A new search is valid. -/
theorem valid_start (nodeCount : Nat) (links : List (Nat × Nat)) :
    (start nodeCount).Valid links where
  nodup_trail := List.nodup_nil
  mark_onPath := by
    intro node
    rcases Nat.lt_or_ge node nodeCount with inside | outside
    · rw [mark_start inside]
      simp [trail, start]
    · simp [start, mark, trail, outside]
  pending_outgoing := nofun
  mem_roots := by
    intro node new
    simpa [start] using lt_length_of_new new
  flagged_followed := nofun

/-- What every move keeps holds along a whole run. -/
theorem run_preserves {motive : Search → Prop}
    (kept : ∀ {search next : Search}, search.Valid links → Move links search next →
      motive search → motive next)
    (count : Nat) (valid : search.Valid links) (holds : motive search) :
    (run links count search).Valid links ∧ motive (run links count search) := by
  induction count generalizing search with
  | zero => exact ⟨valid, holds⟩
  | succ count ih =>
      rcases move_of_step valid with move | ⟨_, still⟩
      · exact ih (move.valid valid) (kept valid move holds)
      · rw [run, still]
        exact ih valid holds

/-! ## The end of a run -/

/-- The moves that the nodes which have not been reached will take: one for each of their links
and one to leave them. -/
def unreached (links : List (Nat × Nat)) (marks : List Mark) : Nat :=
  ∑ node ∈ Finset.range marks.length,
    if marks.getD node .done = .new then (outgoing links node).length + 1 else 0

/-- The moves that a search will take. -/
def remaining (links : List (Nat × Nat)) (search : Search) : Nat :=
  search.roots.length + search.path.length + (search.path.flatMap (·.pending)).length +
    unreached links search.marks

/-- Marking a node as reached takes its own moves away and no others. -/
theorem unreached_set (links : List (Nat × Nat)) {marks : List Mark} {node : Nat}
    (inside : node < marks.length) {given : Mark} (reached : given ≠ .new) :
    unreached links (marks.set node given) +
        (if marks.getD node .done = .new then (outgoing links node).length + 1 else 0) =
      unreached links marks := by
  have member : node ∈ Finset.range marks.length := Finset.mem_range.mpr inside
  have others : ∀ other ∈ (Finset.range marks.length).erase node,
      (if (marks.set node given).getD other .done = .new then (outgoing links other).length + 1
        else 0) =
      if marks.getD other .done = .new then (outgoing links other).length + 1 else 0 := by
    intro other apart
    rw [getD_set inside, if_neg (Finset.ne_of_mem_erase apart)]
  rw [unreached, unreached, List.length_set, ← Finset.add_sum_erase _ _ member,
    ← Finset.add_sum_erase _ _ member, Finset.sum_congr rfl others, getD_set inside, if_pos rfl,
    if_neg reached]
  omega

theorem unreached_enter (links : List (Nat × Nat)) {node : Nat} (new : search.mark node = .new) :
    unreached links (search.marks.set node .onPath) + ((outgoing links node).length + 1) =
      unreached links search.marks := by
  have fresh : search.marks.getD node .done = .new := new
  have reached : Mark.onPath ≠ .new := nofun
  have spent := unreached_set links (lt_length_of_new new) reached
  rwa [if_pos fresh] at spent

theorem unreached_leave {node : Nat} {roots flagged : List Nat} {marks : List Mark}
    {below : List PathEntry} (valid : Valid links ⟨roots, marks, ⟨node, []⟩ :: below, flagged⟩) :
    unreached links (marks.set node .done) = unreached links marks := by
  have onPath : marks.getD node .done = .onPath := valid.mark_innermost
  have reached : Mark.done ≠ .new := nofun
  have spent := unreached_set links valid.innermost_lt_length reached
  rwa [onPath, if_neg nofun] at spent

/-- A move uses up one unit of what remains. -/
theorem Move.remaining (move : Move links search next) (valid : search.Valid links) :
    next.remaining links + 1 = search.remaining links := by
  cases move with
  | skip reached =>
      simp only [Search.remaining, List.length_cons]
      omega
  | start new =>
      have spent := unreached_enter links new
      simp only [Search.remaining, Search.enter, List.flatMap_cons, List.length_append,
        List.length_cons]
        at spent ⊢
      omega
  | leave =>
      have spent := unreached_leave valid
      simp only [Search.remaining, List.flatMap_cons, List.length_append, List.length_cons,
        List.length_nil]
      omega
  | close link onPath =>
      simp only [Search.remaining, List.flatMap_cons, List.length_append, List.length_cons]
      omega
  | extend link new =>
      have spent := unreached_enter links new
      simp only [Search.remaining, Search.enter, List.flatMap_cons, List.length_append,
        List.length_cons]
        at spent ⊢
      omega
  | pass link done =>
      simp only [Search.remaining, List.flatMap_cons, List.length_append, List.length_cons]
      omega

/-- Nothing remains only at the end. -/
theorem finished_of_remaining_eq_zero (spent : search.remaining links = 0) : search.Finished := by
  simp only [remaining, Nat.add_eq_zero_iff] at spent
  obtain ⟨⟨⟨noRoots, noPath⟩, _⟩, _⟩ := spent
  exact ⟨List.length_eq_zero_iff.mp noPath, List.length_eq_zero_iff.mp noRoots⟩

/-- A run that may take all the remaining moves comes to its end. -/
theorem run_finished (count : Nat) (valid : search.Valid links)
    (enough : search.remaining links ≤ count) : (run links count search).Finished := by
  induction count generalizing search with
  | zero => exact finished_of_remaining_eq_zero (Nat.le_zero.mp enough)
  | succ count ih =>
      rcases move_of_step valid with move | ⟨finished, still⟩
      · have spent := move.remaining valid
        exact ih (move.valid valid) (by omega)
      · rw [run, still]
        have idle : ∀ steps, run links steps search = search := by
          intro steps
          induction steps with
          | zero => rfl
          | succ steps same => rw [run, still, same]
        rw [idle]
        exact finished

/-- A new search has each node before it, once as a root and once to leave it, and each link that
leaves a node. -/
theorem remaining_start (nodeCount : Nat) (links : List (Nat × Nat)) :
    (start nodeCount).remaining links =
      2 * nodeCount + links.countP fun link => link.1 < nodeCount := by
  have fresh : unreached links (start nodeCount).marks =
      ∑ node ∈ Finset.range nodeCount, ((outgoing links node).length + 1) := by
    simp only [unreached, start, List.length_replicate]
    refine Finset.sum_congr rfl fun node member => ?_
    simp [Finset.mem_range.mp member]
  simp only [remaining, fresh, Finset.sum_add_distrib, Finset.sum_const, Finset.card_range,
    smul_eq_mul, sum_length_outgoing]
  simp only [start, List.length_range, List.flatMap_nil, List.length_nil]
  omega

/-- A new search has at most `stepCount` moves before it. -/
theorem remaining_start_le (nodeCount : Nat) (links : List (Nat × Nat)) :
    (start nodeCount).remaining links ≤ stepCount nodeCount links := by
  rw [remaining_start, stepCount]
  exact Nat.add_le_add_left List.countP_le_length _

end Search

/-- What every move keeps holds at the end of the search, where the path is empty and no root is
left. -/
theorem searched_preserves {motive : Search → Prop} (links : List (Nat × Nat)) (nodeCount : Nat)
    (kept : ∀ {search next : Search}, search.Valid links → search.Move links next →
      motive search → motive next)
    (holds : motive (Search.start nodeCount)) :
    (searched nodeCount links).Valid links ∧ (searched nodeCount links).Finished ∧
      motive (searched nodeCount links) := by
  have valid := Search.valid_start nodeCount links
  obtain ⟨atEnd, held⟩ :=
    Search.run_preserves kept (stepCount nodeCount links) valid holds
  exact ⟨atEnd, Search.run_finished _ valid (Search.remaining_start_le nodeCount links), held⟩

end ChartCompiler.Sankey
