import ChartCompiler.Proofs.Network.Lanes
import ChartCompiler.Proofs.Number.Exact
import Mathlib.Tactic.Linarith
import Mathlib.Tactic.Ring

/-!
# Curvatures in closed form

Without rounding, the curvature of an edge has a closed form in its lane.  The edges of a pair with
one direction are spread evenly around the straight line.  In a pair with both directions, the
curvatures of the edges that lead away from the first node count up from the offset, and those of
the edges that lead back count up to its opposite.

The two directions lie on different sides of the straight line and the lanes of a direction are
apart, so only the limit can bring two edges of a pair together (`curvatures_bend_apart`).
-/

set_option autoImplicit false

namespace ChartCompiler.Network

/-! ## Confinement -/

/-- A curvature that is confined to a limit on both sides. -/
def confined (limit value : ℚ) : ℚ :=
  min |limit| (max value (-|limit|))

variable {limit value : ℚ}

theorem abs_confined_le (limit value : ℚ) : |confined limit value| ≤ |limit| := by
  refine abs_le.mpr ⟨le_min ?_ (le_max_right _ _), min_le_left _ _⟩
  exact (neg_nonpos.mpr (abs_nonneg limit)).trans (abs_nonneg limit)

/-- What the limit does not reach stays as it is. -/
theorem confined_eq_self (inside : |confined limit value| < |limit|) :
    confined limit value = value := by
  obtain ⟨above, below⟩ := abs_lt.mp inside
  have lowered : max value (-|limit|) < |limit| :=
    (min_lt_iff.mp below).resolve_left (lt_irrefl _)
  rw [confined, min_eq_right lowered.le] at above ⊢
  exact max_eq_left ((lt_max_iff.mp above).resolve_right (lt_irrefl _)).le

/-! ## Wanted curvatures -/

namespace Bending

variable (bending : Bending ℚ) (lane lastLane : Nat)

theorem wanted_alone (forward : Bool) :
    bending.wanted lane lastLane forward false = (lane - lastLane / 2) * bending.separation := by
  simp only [wanted, base, Bool.false_eq_true, if_false, Quantity.zero_rat, zero_add]
  rfl

theorem wanted_forward :
    bending.wanted lane lastLane true true = bending.offset + lane * bending.separation := by
  simp only [wanted, base, if_true]
  change bending.offset + lastLane * bending.separation / 2 +
    (lane - lastLane / 2) * bending.separation = _
  ring

theorem wanted_back :
    bending.wanted lane lastLane false true =
      -(bending.offset + (lastLane - lane) * bending.separation) := by
  simp only [wanted, base, if_true, Bool.false_eq_true, if_false]
  change -(bending.offset + lastLane * bending.separation / 2) +
    (lane - lastLane / 2) * bending.separation = _
  ring

theorem canonical_eq (count : Nat) (forward both : Bool) :
    bending.canonical lane count forward both =
      confined bending.limit (bending.wanted lane (count - 1) forward both) :=
  Quantity.clamp_rat _ _ _

end Bending

/-! ## The closed form -/

/-- What an edge asks for as seen from the node of its pair that comes first. -/
def asked (bending : Bending ℚ) (edges : List (Edge ℚ)) (position : Nat) (edge : Edge ℚ) : ℚ :=
  let lane : ℚ := laneOf edges edge.source edge.target position
  let count : ℚ := laneCount edges edge.source edge.target
  if edge.source = edge.target ∨ laneCount edges edge.target edge.source = 0 then
    (lane - (count - 1) / 2) * bending.separation
  else if edge.source < edge.target then
    bending.offset + lane * bending.separation
  else
    -(bending.offset + (count - 1 - lane) * bending.separation)

/-- Turns a curvature along an edge into one as seen from the node that comes first, and back. -/
def Edge.turned (edge : Edge ℚ) (bend : ℚ) : ℚ :=
  if edge.source ≤ edge.target then bend else -bend

variable {bending : Bending ℚ} {edges : List (Edge ℚ)} {position : Nat} {edge : Edge ℚ}

theorem Edge.turned_turned (edge : Edge ℚ) (bend : ℚ) : edge.turned (edge.turned bend) = bend := by
  by_cases forward : edge.source ≤ edge.target
  · simp only [turned, if_pos forward]
  · simp only [turned, if_neg forward, neg_neg]

theorem Edge.abs_turned (edge : Edge ℚ) (bend : ℚ) : |edge.turned bend| = |bend| := by
  by_cases forward : edge.source ≤ edge.target
  · rw [turned, if_pos forward]
  · rw [turned, if_neg forward, abs_neg]

/-- Whether the pair of an edge has edges in both directions. -/
def opposed (edges : List (Edge ℚ)) (edge : Edge ℚ) : Bool :=
  decide (edge.source ≠ edge.target) &&
    edges.any fun other => decide (other.source = edge.target ∧ other.target = edge.source)

theorem opposed_eq_false_iff :
    opposed edges edge = false ↔
      edge.source = edge.target ∨ laneCount edges edge.target edge.source = 0 := by
  rw [opposed, Bool.and_eq_false_iff, decide_eq_false_iff_not, not_not, laneCount_eq_zero_iff]

/-- An edge asks for what its lane gets around the middle of its direction. -/
theorem asked_eq_wanted (bending : Bending ℚ) (here : edges[position]? = some edge) :
    asked bending edges position edge =
      bending.wanted (laneOf edges edge.source edge.target position)
        (laneCount edges edge.source edge.target - 1) (decide (edge.source ≤ edge.target))
        (opposed edges edge) := by
  have occupied : 1 ≤ laneCount edges edge.source edge.target := Nat.one_le_of_lt (laneOf_lt here)
  have lastLane : ((laneCount edges edge.source edge.target - 1 : ℕ) : ℚ) =
      laneCount edges edge.source edge.target - 1 := by
    rw [Nat.cast_sub occupied, Nat.cast_one]
  cases both : opposed edges edge with
  | false =>
      rw [asked, if_pos (opposed_eq_false_iff.mp both), Bending.wanted_alone, lastLane]
  | true =>
      have opposite := mt opposed_eq_false_iff.mpr (ne_false_of_eq_true both)
      obtain ⟨differ, -⟩ := not_or.mp opposite
      rw [asked, if_neg opposite]
      by_cases forward : edge.source < edge.target
      · rw [if_pos forward, decide_eq_true forward.le, Bending.wanted_forward]
      · have back : ¬ edge.source ≤ edge.target := fun ahead =>
          forward (lt_of_le_of_ne ahead differ)
        rw [if_neg forward, decide_eq_false back, Bending.wanted_back, lastLane]

/-- The curvature of an edge is what it asks for, confined and turned. -/
theorem curvature_eq (bending : Bending ℚ) (here : edges[position]? = some edge) :
    curvature bending edges position edge =
      edge.turned (confined bending.limit (asked bending edges position edge)) := by
  rw [asked_eq_wanted bending here, ← Bending.canonical_eq, curvature, length_lanes,
    idxOf_lanes (mem_lanes_self here)]
  simp only [Edge.turned, decide_eq_true_eq]
  rfl

/-! ## Pairs -/

/-- Two edges join the same two nodes, in the same direction or in opposite ones. -/
def Edge.SamePair (edge other : Edge ℚ) : Prop :=
  (edge.source = other.source ∧ edge.target = other.target) ∨
    (edge.source = other.target ∧ edge.target = other.source)

variable {first second : Nat} {other : Edge ℚ}

/-- Edges of one direction ask for curvatures that are as far apart as their lanes. -/
theorem asked_sub_asked (bending : Bending ℚ) (edges : List (Edge ℚ)) (first second : Nat)
    (source : edge.source = other.source) (target : edge.target = other.target) :
    asked bending edges first edge - asked bending edges second other =
      ((laneOf edges edge.source edge.target first : ℚ) -
        laneOf edges edge.source edge.target second) * bending.separation := by
  rw [asked, asked, ← source, ← target]
  split_ifs <;> ring

/-- The edges that lead away from the first node bend to one side. -/
theorem asked_pos (offset : 0 < bending.offset) (separation : 0 < bending.separation)
    (position : Nat) (ahead : edge.source < edge.target)
    (opposite : laneCount edges edge.target edge.source ≠ 0) :
    0 < asked bending edges position edge := by
  rw [asked, if_neg (not_or.mpr ⟨ahead.ne, opposite⟩), if_pos ahead]
  exact add_pos_of_pos_of_nonneg offset (mul_nonneg (Nat.cast_nonneg _) separation.le)

/-- The edges that lead back bend to the other side. -/
theorem asked_neg (offset : 0 < bending.offset) (separation : 0 < bending.separation)
    (here : edges[position]? = some edge) (back : edge.target < edge.source)
    (opposite : laneCount edges edge.target edge.source ≠ 0) :
    asked bending edges position edge < 0 := by
  have lane : (laneOf edges edge.source edge.target position : ℚ) + 1 ≤
      laneCount edges edge.source edge.target := by
    exact_mod_cast laneOf_lt here
  rw [asked, if_neg (not_or.mpr ⟨back.ne', opposite⟩), if_neg back.not_gt, neg_lt_zero]
  exact add_pos_of_pos_of_nonneg offset (mul_nonneg (by linarith) separation.le)

/-- Different edges of a pair ask for different curvatures. -/
theorem asked_ne (offset : 0 < bending.offset) (separation : 0 < bending.separation)
    (here : edges[first]? = some edge) (there : edges[second]? = some other)
    (pair : edge.SamePair other) (differ : first ≠ second) :
    asked bending edges first edge ≠ asked bending edges second other := by
  by_cases same : edge.source = other.source ∧ edge.target = other.target
  · obtain ⟨source, target⟩ := same
    have lanes : (laneOf edges edge.source edge.target first : ℚ) ≠
        laneOf edges edge.source edge.target second := by
      refine Nat.cast_injective.ne (laneOf_ne (mem_lanes_self here) ?_ differ)
      exact source ▸ target ▸ mem_lanes_self there
    rw [← sub_ne_zero, asked_sub_asked bending edges first second source target]
    exact mul_ne_zero (sub_ne_zero.mpr lanes) separation.ne'
  · obtain ⟨source, target⟩ := pair.resolve_left same
    have occupied : laneCount edges other.source other.target ≠ 0 :=
      Nat.ne_zero_of_lt (laneOf_lt there)
    have occupied' : laneCount edges edge.source edge.target ≠ 0 :=
      Nat.ne_zero_of_lt (laneOf_lt here)
    rcases lt_trichotomy edge.source edge.target with ahead | loop | back
    · have above := asked_pos offset separation first ahead (source ▸ target ▸ occupied)
      have below := asked_neg offset separation there (source ▸ target ▸ ahead)
        (source ▸ target ▸ occupied')
      exact (below.trans above).ne'
    · exact absurd ⟨loop.trans target, loop.symm.trans source⟩ same
    · have below := asked_neg offset separation here back (source ▸ target ▸ occupied)
      have above := asked_pos offset separation second (source ▸ target ▸ back)
        (source ▸ target ▸ occupied')
      exact (below.trans above).ne

/-! ## All curvatures -/

/-- Some curvatures bend the edges of every pair apart. -/
structure BendApart (bending : Bending ℚ) (edges : List (Edge ℚ)) (bends : List ℚ) : Prop where
  /-- An edge is bent by what it asks for, confined to the limit and turned along the edge. -/
  closed : bends = edges.zipIdx.map fun (edge, position) =>
    edge.turned (confined bending.limit (asked bending edges position edge))
  /-- No curvature is beyond the limit. -/
  bounded : ∀ bend ∈ bends, |bend| ≤ |bending.limit|
  /-- As seen from one node, edges of a pair that are inside the limit are bent differently. -/
  apart : 0 < bending.offset → 0 < bending.separation →
    ∀ (first second : Nat) (edge other : Edge ℚ) (bend bend' : ℚ), first ≠ second →
      edges[first]? = some edge → edges[second]? = some other → edge.SamePair other →
      bends[first]? = some bend → bends[second]? = some bend' →
      |bend| < |bending.limit| → |bend'| < |bending.limit| →
        edge.turned bend ≠ other.turned bend'

/-- **The curvatures of a network have a closed form, and bend the edges of every pair apart.** -/
theorem curvatures_bend_apart (bending : Bending ℚ) (edges : List (Edge ℚ)) :
    BendApart bending edges (curvatures bending edges) := by
  have closed : curvatures bending edges = edges.zipIdx.map fun (edge, position) =>
      edge.turned (confined bending.limit (asked bending edges position edge)) :=
    List.map_congr_left fun _ member =>
      curvature_eq bending (List.mem_zipIdx_iff_getElem?.mp member)
  -- A curvature that is inside the limit is, seen from the first node, what the edge asks for.
  have kept {position : Nat} {edge : Edge ℚ} {bend : ℚ} (here : edges[position]? = some edge)
      (bent : (curvatures bending edges)[position]? = some bend)
      (inside : |bend| < |bending.limit|) :
      edge.turned bend = asked bending edges position edge := by
    rw [closed, List.getElem?_map, List.getElem?_zipIdx, here, Nat.zero_add] at bent
    obtain rfl := Option.some.inj bent
    rw [Edge.abs_turned] at inside
    rw [Edge.turned_turned, confined_eq_self inside]
  constructor
  case closed => exact closed
  case bounded =>
    rw [closed]
    refine List.forall_mem_map.mpr fun (edge, position) _ => ?_
    exact (Edge.abs_turned edge _).trans_le (abs_confined_le _ _)
  case apart =>
    intro offset separation first second edge other bend bend' differ here there pair bent bent'
      inside inside'
    rw [kept here bent inside, kept there bent' inside']
    exact asked_ne offset separation here there pair differ

/-- Three edges of one direction and one of the other. -/
def crossingEdges : List (Edge ℚ) :=
  [(0, 1, some "b"), (1, 0, none), (0, 1, some "a"), (0, 1, none)].map
    fun (source, target, style) =>
      { source, target, style, value := 1
        amount := none, count := none, date := none, token := none }

/-- Curvatures with a limit that the third lane reaches. -/
def crossingBending : Bending ℚ :=
  { separation := 1, offset := 1, limit := 5 / 2 }

/-- The edge without style has the first lane, and the limit reaches the third. -/
theorem curvatures_bend_apart_of_crossing :
    curvatures crossingBending crossingEdges = [5 / 2, 1, 2, 1] ∧
      BendApart crossingBending crossingEdges [5 / 2, 1, 2, 1] := by
  have bent : curvatures crossingBending crossingEdges = [5 / 2, 1, 2, 1] :=
    (curvatures_bend_apart crossingBending crossingEdges).closed.trans (by decide +kernel)
  exact ⟨bent, bent ▸ curvatures_bend_apart crossingBending crossingEdges⟩

end ChartCompiler.Network
