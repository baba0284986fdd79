import ChartCompiler.Proofs.Sankey.Cycles
import Mathlib.Data.Nat.Order.Lemmas
import Mathlib.Order.Monotone.Basic

/-!
# The moments of a search

A search of a graph comes to its end after exactly `stepCount` steps: each step uses up one unit of
what remains, and nothing remains exactly at the end (`finished_moment_iff`).

What has been reached stays reached, and what has been followed stays followed.  A step puts a node
on the path exactly when it is the step that reaches the node (`Search.Move.pushes_iff`), and takes
up a link exactly when it is the step that follows it (`Search.Move.follows_iff`).  At the end all
nodes have been reached and all links followed, and what turns true for good does so once.  So each
node is pushed once, and each link is followed once and classified at that moment
(`search_passes_once`).
-/

set_option autoImplicit false

namespace ChartCompiler.Sankey

variable {links : List (Nat × Nat)}

namespace Search

variable {search next : Search} {position source target : Nat}

/-- The next step puts a node on the path. -/
def Pushes (links : List (Nat × Nat)) (search : Search) (node : Nat) : Prop :=
  (search.step links).trail = node :: search.trail

/-! ## Reaching nodes -/

theorem pushes_enter {entered : Nat} (new : search.mark entered = .new) (node : Nat) :
    (search.enter links entered).trail = node :: search.trail ↔
      search.mark node = .new ∧ (search.enter links entered).mark node ≠ .new := by
  have trail : (search.enter links entered).trail = entered :: search.trail := rfl
  rw [trail, List.cons_eq_cons, and_iff_left rfl, mark_enter new]
  constructor
  · rintro rfl
    exact ⟨new, by simp⟩
  · rintro ⟨unreached, reached⟩
    by_contra apart
    rw [if_neg (Ne.symm apart)] at reached
    exact reached unreached

/-- A move pushes the nodes that it reaches. -/
theorem Move.pushes_iff (move : Move links search next) (valid : search.Valid links) (node : Nat) :
    next.trail = node :: search.trail ↔ search.mark node = .new ∧ next.mark node ≠ .new := by
  cases move with
  | skip => exact iff_of_false List.ne_cons_self fun both => both.2 both.1
  | start new => exact pushes_enter new node
  | @leave left roots flagged marks below =>
      refine iff_of_false (fun longer => ?_) fun both => ?_
      · have lengths := congrArg List.length longer
        simp only [trail, List.map_cons, List.length_cons] at lengths
        omega
      · obtain ⟨new, reached⟩ := both
        rw [mark_leave valid] at reached
        split at reached
        · next same =>
          rw [same, valid.mark_innermost] at new
          cases new
        · exact reached new
  | close => exact iff_of_false List.ne_cons_self fun both => both.2 both.1
  | extend link new => exact pushes_enter new node
  | pass => exact iff_of_false List.ne_cons_self fun both => both.2 both.1

/-- What has been reached stays reached. -/
theorem Move.reached (move : Move links search next) (valid : search.Valid links) {node : Nat}
    (reached : search.mark node ≠ .new) : next.mark node ≠ .new := by
  cases move with
  | skip | close | pass => exact reached
  | start new | extend _ new =>
      rw [mark_enter new]
      split
      · decide
      · exact reached
  | leave =>
      rw [mark_leave valid]
      split
      · decide
      · exact reached

/-! ## Following links -/

/-- The next link leaves the innermost node. -/
theorem Valid.innermost_of_next (valid : search.Valid links)
    (follows : search.next? = some position) (link : links[position]? = some (source, target)) :
    search.trail.head? = some source := by
  obtain ⟨roots, marks, path, flagged⟩ := search
  match path, follows with
  | ⟨node, first :: pending⟩ :: below, rfl =>
      obtain ⟨_, leaves⟩ := valid.link_of_pending
      rw [link] at leaves
      cases leaves
      rfl

/-- A step takes up a link exactly when it is the one that follows it. -/
theorem Move.follows_iff (move : Move links search next) (valid : search.Valid links)
    (position : Nat) :
    search.next? = some position ↔
      ¬ search.Followed links position ∧ next.Followed links position := by
  rw [move.followed_iff valid]
  constructor
  · exact fun follows => ⟨valid.not_followed_next follows, .inr follows⟩
  · exact fun ⟨pending, followed⟩ => followed.resolve_left pending

/-- A link that is followed is flagged when its target is on the path, and extends the path when its
target is new. -/
theorem Move.classified (move : Move links search next) (valid : search.Valid links)
    (follows : search.next? = some position) (link : links[position]? = some (source, target)) :
    (position ∈ next.flagged ↔ search.mark target = .onPath) ∧
      (next.trail = target :: search.trail ↔ search.mark target = .new) := by
  have unflagged : position ∉ search.flagged := fun flagged =>
    valid.not_followed_next follows (valid.flagged_followed position flagged)
  cases move with
  | skip | start | leave => cases follows
  | close link' onPath =>
      cases follows
      cases link.symm.trans link'
      refine ⟨iff_of_true List.mem_cons_self onPath, iff_of_false List.ne_cons_self fun new => ?_⟩
      exact nomatch onPath.symm.trans new
  | extend link' new =>
      cases follows
      cases link.symm.trans link'
      refine ⟨iff_of_false unflagged fun onPath => ?_, iff_of_true rfl new⟩
      exact nomatch new.symm.trans onPath
  | pass link' done =>
      cases follows
      cases link.symm.trans link'
      refine ⟨iff_of_false unflagged fun onPath => ?_, iff_of_false List.ne_cons_self fun new => ?_⟩
      · exact nomatch done.symm.trans onPath
      · exact nomatch done.symm.trans new

/-- A link that has been followed keeps or lacks its flag. -/
theorem Move.flagged_iff (move : Move links search next) (valid : search.Valid links)
    (followed : search.Followed links position) :
    position ∈ next.flagged ↔ position ∈ search.flagged := by
  refine ⟨fun flagged => ?_, move.flagged_mono⟩
  exact (move.flagged_subset flagged).resolve_right fun follows =>
    valid.not_followed_next follows followed

/-! ## What remains at the end -/

theorem Finished.mark_ne_new (finished : search.Finished) (valid : search.Valid links)
    (node : Nat) : search.mark node ≠ .new := by
  intro new
  have root := valid.mem_roots node new
  rw [finished.2] at root
  cases root

theorem Finished.mark_eq_done (finished : search.Finished) (valid : search.Valid links)
    (node : Nat) : search.mark node = .done := by
  cases state : search.mark node with
  | new => exact absurd state (finished.mark_ne_new valid node)
  | onPath =>
      have here := (valid.mark_onPath node).mp state
      rw [trail, finished.1] at here
      cases here
  | done => rfl

theorem Finished.remaining_eq_zero (finished : search.Finished) (valid : search.Valid links) :
    search.remaining links = 0 := by
  have none : unreached links search.marks = 0 :=
    Finset.sum_eq_zero fun node _ => if_neg (finished.mark_ne_new valid node)
  rw [remaining, none, finished.1, finished.2]
  rfl

theorem run_succ (links : List (Nat × Nat)) (count : Nat) (search : Search) :
    run links (count + 1) search = (run links count search).step links := by
  induction count generalizing search with
  | zero => rfl
  | succ count ih => exact ih (search.step links)

end Search

/-! ## Moments -/

/-- The search after some number of steps. -/
def moment (nodeCount : Nat) (links : List (Nat × Nat)) (count : Nat) : Search :=
  (Search.start nodeCount).run links count

variable {nodeCount : Nat}

theorem moment_succ (nodeCount : Nat) (links : List (Nat × Nat)) (count : Nat) :
    moment nodeCount links (count + 1) = (moment nodeCount links count).step links :=
  Search.run_succ links count _

theorem valid_moment (nodeCount : Nat) (links : List (Nat × Nat)) (count : Nat) :
    (moment nodeCount links count).Valid links :=
  (Search.run_preserves (motive := fun _ => True) (fun _ _ _ => trivial) count
    (Search.valid_start nodeCount links) trivial).1

/-- One moment leads to the next by a move, or the search is at its end. -/
theorem move_moment (nodeCount : Nat) (links : List (Nat × Nat)) (count : Nat) :
    Search.Move links (moment nodeCount links count) (moment nodeCount links (count + 1)) ∨
      (moment nodeCount links count).Finished ∧
        moment nodeCount links (count + 1) = moment nodeCount links count := by
  rw [moment_succ]
  exact Search.move_of_step (valid_moment nodeCount links count)

/-- Each step uses up one unit of what remains. -/
theorem remaining_moment (within : Within nodeCount links) (count : Nat) :
    (moment nodeCount links count).remaining links = stepCount nodeCount links - count := by
  induction count with
  | zero =>
      have all : (links.countP fun link => link.1 < nodeCount) = links.length :=
        List.countP_eq_length.mpr fun link member => decide_eq_true (within link member).1
      exact (Search.remaining_start nodeCount links).trans (by rw [all]; rfl)
  | succ count ih =>
      have valid := valid_moment nodeCount links count
      rcases move_moment nodeCount links count with move | ⟨finished, still⟩
      · have spent := move.remaining valid
        omega
      · have none := finished.remaining_eq_zero valid
        rw [still]
        omega

/-- **A search takes exactly `stepCount` steps.** -/
theorem finished_moment_iff (within : Within nodeCount links) (count : Nat) :
    (moment nodeCount links count).Finished ↔ stepCount nodeCount links ≤ count := by
  have remaining := remaining_moment within count
  constructor
  · intro finished
    have none := finished.remaining_eq_zero (valid_moment nodeCount links count)
    omega
  · intro enough
    have none : (moment nodeCount links count).remaining links = 0 := by omega
    exact Search.finished_of_remaining_eq_zero none

/-! ## What turns true once -/

/-- What stays true once it is, and is true in the end but not at first, turns true once. -/
theorem existsUnique_turn {holds : Nat → Prop} (kept : ∀ count, holds count → holds (count + 1))
    (first : ¬ holds 0) {last : Nat} (final : holds last) :
    ∃! count, ¬ holds count ∧ holds (count + 1) := by
  have mono : Monotone holds := monotone_nat_of_le_succ kept
  obtain ⟨turn, before, after⟩ := Nat.exists_not_and_succ_of_not_zero_of_exists first ⟨last, final⟩
  refine ⟨turn, ⟨before, after⟩, fun other ⟨before', after'⟩ => ?_⟩
  rcases Nat.lt_trichotomy other turn with less | same | greater
  · exact absurd (mono less after') before
  · exact same
  · exact absurd (mono greater after) before'

theorem pushes_moment_iff (node count : Nat) :
    (moment nodeCount links count).Pushes links node ↔
      ¬ (moment nodeCount links count).mark node ≠ .new ∧
        (moment nodeCount links (count + 1)).mark node ≠ .new := by
  rw [Search.Pushes, ← moment_succ, not_not]
  rcases move_moment nodeCount links count with move | ⟨-, still⟩
  · exact move.pushes_iff (valid_moment nodeCount links count) node
  · rw [still]
    exact iff_of_false List.ne_cons_self fun both => both.2 both.1

theorem reached_moment_succ (node count : Nat)
    (reached : (moment nodeCount links count).mark node ≠ .new) :
    (moment nodeCount links (count + 1)).mark node ≠ .new := by
  rcases move_moment nodeCount links count with move | ⟨-, still⟩
  · exact move.reached (valid_moment nodeCount links count) reached
  · rwa [still]

theorem follows_moment_iff (position count : Nat) :
    (moment nodeCount links count).next? = some position ↔
      ¬ (moment nodeCount links count).Followed links position ∧
        (moment nodeCount links (count + 1)).Followed links position := by
  rcases move_moment nodeCount links count with move | ⟨finished, still⟩
  · exact move.follows_iff (valid_moment nodeCount links count) position
  · rw [still, Search.next?, finished.1]
    exact iff_of_false (Option.some_ne_none position).symm fun both => both.1 both.2

theorem followed_moment_succ (position count : Nat)
    (followed : (moment nodeCount links count).Followed links position) :
    (moment nodeCount links (count + 1)).Followed links position := by
  rcases move_moment nodeCount links count with move | ⟨-, still⟩
  · exact (move.followed_iff (valid_moment nodeCount links count) position).mpr (.inl followed)
  · rwa [still]

/-- Nothing has been followed before the first step. -/
theorem not_followed_moment_zero (within : Within nodeCount links) (position : Nat) :
    ¬ (moment nodeCount links 0).Followed links position := by
  rintro ⟨⟨source, target, link, reached⟩, -⟩
  exact reached (Search.mark_start (within _ (List.mem_of_getElem? link)).1)

/-- What has been followed was the next link of an earlier moment. -/
theorem exists_follows_of_followed (within : Within nodeCount links) {position count : Nat}
    (followed : (moment nodeCount links count).Followed links position) :
    ∃ earlier < count, (moment nodeCount links earlier).next? = some position := by
  induction count with
  | zero => exact absurd followed (not_followed_moment_zero within position)
  | succ count ih =>
      by_cases before : (moment nodeCount links count).Followed links position
      · obtain ⟨earlier, less, follows⟩ := ih before
        exact ⟨earlier, Nat.lt_succ_of_lt less, follows⟩
      · exact ⟨count, Nat.lt_succ_self count, (follows_moment_iff position count).mpr
          ⟨before, followed⟩⟩

/-! ## The whole search -/

/-- What is true of marks, path and links after some number of steps. -/
structure Coherent (nodeCount : Nat) (links : List (Nat × Nat)) (count : Nat) : Prop where
  /-- No node is on the path twice. -/
  nodup_trail : (moment nodeCount links count).trail.Nodup
  /-- The nodes on the path are those that are marked so. -/
  mark_onPath : ∀ node, (moment nodeCount links count).mark node = .onPath ↔
    node ∈ (moment nodeCount links count).trail
  /-- All links of a node that is done have been followed by earlier steps. -/
  done_followed : ∀ node, (moment nodeCount links count).mark node = .done →
    ∀ position ∈ outgoing links node,
      ∃ earlier < count, (moment nodeCount links earlier).next? = some position

/-- The step after a moment follows a link, and the link is classified by the mark of its target at
that moment. -/
structure Classifies (nodeCount : Nat) (links : List (Nat × Nat)) (count position : Nat)
    (source target : Nat) : Prop where
  /-- The link leaves the innermost node. -/
  innermost : (moment nodeCount links count).trail.head? = some source
  /-- It closes a cycle exactly when its target is on the path. -/
  closes_iff : Closes nodeCount links position ↔
    (moment nodeCount links count).mark target = .onPath
  /-- Its target is pushed exactly when it is new. -/
  pushes_iff : (moment nodeCount links count).Pushes links target ↔
    (moment nodeCount links count).mark target = .new

theorem coherent_moment (within : Within nodeCount links) (count : Nat) :
    Coherent nodeCount links count where
  nodup_trail := (valid_moment nodeCount links count).nodup_trail
  mark_onPath := (valid_moment nodeCount links count).mark_onPath
  done_followed := by
    intro node done position leaves
    have valid := valid_moment nodeCount links count
    obtain ⟨target, link⟩ := mem_outgoing.mp leaves
    refine exists_follows_of_followed within ⟨⟨node, target, link, ?_⟩, fun entry member => ?_⟩
    · rw [done]
      decide
    · -- Only nodes on the path have links pending.
      intro pending
      obtain ⟨_, leaves'⟩ := mem_outgoing.mp ((valid.pending_outgoing entry member).subset pending)
      cases link.symm.trans leaves'
      have onPath := (valid.mark_onPath entry.node).mpr (List.mem_map_of_mem member)
      exact nomatch done.symm.trans onPath

/-- The flag of a link that has been followed does not change any more. -/
theorem flagged_moment_iff {position count later : Nat}
    (followed : (moment nodeCount links count).Followed links position) (after : count ≤ later) :
    position ∈ (moment nodeCount links later).flagged ↔
      position ∈ (moment nodeCount links count).flagged := by
  suffices settled : (moment nodeCount links later).Followed links position ∧
      (position ∈ (moment nodeCount links later).flagged ↔
        position ∈ (moment nodeCount links count).flagged) from settled.2
  induction later, after using Nat.le_induction with
  | base => exact ⟨followed, Iff.rfl⟩
  | succ later _ ih =>
      obtain ⟨followed', same⟩ := ih
      refine ⟨followed_moment_succ position later followed', ?_⟩
      rcases move_moment nodeCount links later with move | ⟨-, still⟩
      · exact (move.flagged_iff (valid_moment nodeCount links later) followed').trans same
      · rwa [still]

theorem classifies_of_follows (within : Within nodeCount links) {position source target : Nat}
    (link : links[position]? = some (source, target)) {count : Nat}
    (follows : (moment nodeCount links count).next? = some position) :
    Classifies nodeCount links count position source target := by
  have valid := valid_moment nodeCount links count
  obtain ⟨bound, -⟩ := List.getElem?_eq_some_iff.mp link
  have followed := ((follows_moment_iff position count).mp follows).2
  have going : ¬ (moment nodeCount links count).Finished := by
    intro finished
    rw [Search.next?, finished.1] at follows
    cases follows
  have early : count + 1 ≤ stepCount nodeCount links := by
    rw [finished_moment_iff within] at going
    omega
  have move := (move_moment nodeCount links count).resolve_right fun still => going still.1
  obtain ⟨flagged, pushed⟩ := move.classified valid follows link
  refine ⟨valid.innermost_of_next follows link, ?_, ?_⟩
  · rw [closes_iff, and_iff_right bound, ← flagged]
    exact flagged_moment_iff followed early
  · rw [Search.Pushes, ← moment_succ]
    exact pushed

/-- **The search ends after exactly `stepCount` steps, and passes each node and each link once.**
At its end all nodes are done and the path is empty.  Each node is pushed by one step, and each link
is followed by one step, which classifies it by the mark of its target at that moment.  At every
moment the nodes on the path are those that are marked so, without repetition, and all links of a
node that is done have been followed. -/
theorem search_passes_once (nodeCount : Nat) (links : List (Nat × Nat))
    (within : Within nodeCount links) :
    (∀ count, (moment nodeCount links count).Finished ↔ stepCount nodeCount links ≤ count) ∧
    (searched nodeCount links).path = [] ∧
    (∀ node < nodeCount, (searched nodeCount links).mark node = .done ∧
      ∃! count, (moment nodeCount links count).Pushes links node) ∧
    (∀ position source target, links[position]? = some (source, target) →
      (∃! count, (moment nodeCount links count).next? = some position) ∧
      ∀ count, (moment nodeCount links count).next? = some position →
        Classifies nodeCount links count position source target) ∧
    ∀ count, Coherent nodeCount links count := by
  have finished : (searched nodeCount links).Finished :=
    (finished_moment_iff within (stepCount nodeCount links)).mpr le_rfl
  have valid := valid_moment nodeCount links (stepCount nodeCount links)
  refine ⟨finished_moment_iff within, finished.1, fun node inside => ⟨?_, ?_⟩,
    fun position source target link => ⟨?_, fun count => classifies_of_follows within link⟩,
    coherent_moment within⟩
  · exact finished.mark_eq_done valid node
  · have unreached : ¬ (moment nodeCount links 0).mark node ≠ .new :=
      not_not.mpr (Search.mark_start inside)
    simp only [pushes_moment_iff]
    exact existsUnique_turn (reached_moment_succ node) unreached (finished.mark_ne_new valid node)
  · have followed : (searched nodeCount links).Followed links position := by
      refine ⟨⟨source, target, link, finished.mark_ne_new valid source⟩, fun entry member => ?_⟩
      rw [finished.1] at member
      cases member
    simp only [follows_moment_iff]
    exact existsUnique_turn (followed_moment_succ position)
      (not_followed_moment_zero within position) followed

/-- In a graph with a cycle, a self-loop and a second root, the link back to the first node is
followed when that node is on the path, and the first node is pushed once. -/
theorem search_passes_once_of_four :
    Within 4 [(0, 1), (1, 2), (2, 0), (2, 2), (3, 0)] ∧
      (moment 4 [(0, 1), (1, 2), (2, 0), (2, 2), (3, 0)] 13).Finished ∧
      ¬ (moment 4 [(0, 1), (1, 2), (2, 0), (2, 2), (3, 0)] 12).Finished ∧
      Classifies 4 [(0, 1), (1, 2), (2, 0), (2, 2), (3, 0)] 3 2 2 0 := by
  obtain ⟨ends, -, -, follows, -⟩ :=
    search_passes_once 4 [(0, 1), (1, 2), (2, 0), (2, 2), (3, 0)] (by decide)
  exact ⟨by decide, (ends 13).mpr (by decide), fun early => absurd ((ends 12).mp early) (by decide),
    (follows 2 2 0 rfl).2 3 (by decide)⟩

end ChartCompiler.Sankey
