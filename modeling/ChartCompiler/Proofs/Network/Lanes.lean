import ChartCompiler.Proofs.Network.Identity
import ChartCompiler.Proofs.Sorting
import Mathlib.Data.Prod.Lex
import Mathlib.Data.String.Basic
import Mathlib.Order.WithBot

/-!
# Lanes

The edges of one direction are ordered by style and then by position.  No two of them are equal in
that order, so the lane of an edge is the number of edges of its direction that come before it
(`idxOf_lanes`), and the order in which the edges arrive matters only within a style.
-/

set_option autoImplicit false

namespace ChartCompiler.Network

/-- Styles in order, after edges without one. -/
def styleRank : Option String → WithBot String
  | none => ⊥
  | some style => style

theorem styleLE_iff {first second : Option String} :
    styleLE first second = true ↔ styleRank first ≤ styleRank second := by
  cases first with
  | none => exact iff_of_true rfl bot_le
  | some first =>
      cases second with
      | none => exact iff_of_false (by simp [styleLE]) (WithBot.not_coe_le_bot first)
      | some second => exact decide_eq_true_iff.trans WithBot.coe_le_coe.symm

variable {α : Type} {edges : List (Edge α)} {source target position : Nat}

/-- Edges are ordered by style and then by position. -/
def laneKey (edges : List (Edge α)) (position : Nat) : WithBot String ×ₗ Nat :=
  toLex (styleRank ((edges[position]?).bind (·.style)), position)

/-- Lanes are sorted by style, and edges of one style are not exchanged. -/
theorem pairwise_lanes (edges : List (Edge α)) (source target : Nat) :
    (lanes edges source target).Pairwise fun first second =>
      laneKey edges first < laneKey edges second := by
  let found := edges.zipIdx.filter fun entry =>
    decide (entry.1.source = source ∧ entry.1.target = target)
  let earlier : Edge α × Nat → Edge α × Nat → Bool := fun first second =>
    styleLE first.1.style second.1.style
  -- The edges of a direction are found in the order of their positions, and ties keep that order.
  have ascending : found.Pairwise fun first second => first.2 < second.2 := by
    refine List.Pairwise.filter _ (List.pairwise_map.mp ?_)
    rw [List.zipIdx_map_snd]
    exact List.pairwise_lt_range' 1
  have transitive (first second third : Edge α × Nat) (before : earlier first second = true)
      (after : earlier second third = true) : earlier first third = true :=
    styleLE_iff.mpr (le_trans (styleLE_iff.mp before) (styleLE_iff.mp after))
  have total (first second : Edge α × Nat) :
      (earlier first second || earlier second first) = true := by
    simpa only [earlier, Bool.or_eq_true, styleLE_iff] using
      le_total (styleRank first.1.style) (styleRank second.1.style)
  refine List.pairwise_map.mpr
    ((pairwise_mergeSort_stable transitive total ascending).imp_of_mem ?_)
  rintro ⟨edge, first⟩ ⟨other, second⟩ here there ⟨before, tie⟩
  simp only [found, List.mem_mergeSort, List.mem_filter, List.mem_zipIdx_iff_getElem?] at here there
  simp only [laneKey, here.1, there.1, Option.bind_some, Prod.Lex.toLex_lt_toLex]
  exact (styleLE_iff.mp before).lt_or_eq.imp id fun same => ⟨same, tie (styleLE_iff.mpr same.ge)⟩

/-- The number of edges that run from one node to another. -/
def laneCount (edges : List (Edge α)) (source target : Nat) : Nat :=
  edges.countP fun edge => decide (edge.source = source ∧ edge.target = target)

/-- The number of edges from one node to another that come before an edge by style and then by
position. -/
def laneOf (edges : List (Edge α)) (source target position : Nat) : Nat :=
  edges.zipIdx.countP fun (other, place) =>
    decide ((other.source = source ∧ other.target = target) ∧
      laneKey edges place < laneKey edges position)

/-- Every edge of a direction has a lane. -/
theorem length_lanes (edges : List (Edge α)) (source target : Nat) :
    (lanes edges source target).length = laneCount edges source target := by
  have first : edges = edges.zipIdx.map Prod.fst := (List.zipIdx_map_fst 0 edges).symm
  rw [lanes, List.length_map, List.length_mergeSort, ← List.countP_eq_length_filter, laneCount]
  conv_rhs => rw [first, List.countP_map]
  rfl

/-- The lane of an edge is its place by style and then by position. -/
theorem idxOf_lanes (member : position ∈ lanes edges source target) :
    (lanes edges source target).idxOf position = laneOf edges source target position := by
  rw [idxOf_eq_countP (pairwise_lanes edges source target) member, lanes, List.countP_map,
    (List.mergeSort_perm _ _).countP_eq, List.countP_filter, laneOf]
  refine List.countP_congr fun entry _ => ?_
  simp only [Function.comp_apply, Bool.and_eq_true, decide_eq_true_eq]
  exact and_comm

theorem laneOf_lt {edge : Edge α} (here : edges[position]? = some edge) :
    laneOf edges edge.source edge.target position < laneCount edges edge.source edge.target := by
  rw [← idxOf_lanes (mem_lanes_self here), ← length_lanes]
  exact List.idxOf_lt_length_of_mem (mem_lanes_self here)

/-- Two edges of one direction are in different lanes. -/
theorem laneOf_ne {first second : Nat} (inLane : first ∈ lanes edges source target)
    (inLane' : second ∈ lanes edges source target) (differ : first ≠ second) :
    laneOf edges source target first ≠ laneOf edges source target second := by
  rw [← idxOf_lanes inLane, ← idxOf_lanes inLane', Ne, List.idxOf_inj inLane]
  exact differ

theorem laneCount_eq_zero_iff :
    laneCount edges source target = 0 ↔
      (edges.any fun edge => decide (edge.source = source ∧ edge.target = target)) = false := by
  rw [laneCount, List.countP_eq_zero, List.any_eq_false]

end ChartCompiler.Network
