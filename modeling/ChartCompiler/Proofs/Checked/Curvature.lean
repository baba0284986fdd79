import ChartCompiler.Proofs.Checked.Operation
import ChartCompiler.Proofs.Network.Identity

/-!
# Curvature with its checks

Edges are collected by direction, sorted into lanes and bent one by one.  Every group holds an edge,
so it has a last lane, and every edge is in the group of its own direction and in no other, so the
curvature that is put at its position is its own.
-/

set_option autoImplicit false

namespace ChartCompiler.Network

variable {α : Type}

/-! ## Lanes -/

/-- Where an edge leads from and to. -/
def Edge.ends (edge : Edge α) : Nat × Nat :=
  (edge.source, edge.target)

/-- The positions of the edges of each direction. -/
def directionsChecked (edges : List (Edge α)) : Checked (List ((Nat × Nat) × List Nat)) :=
  edges.zipIdx.foldlM
    (fun groups (edge, position) => Checked.post edge.ends [] (· ++ [position]) groups) []

/-- The positions of some edges, put in order by style. -/
def sortedLanesChecked (edges : List (Edge α)) (positions : List Nat) : Checked (List Nat) := do
  let styled ← positions.mapM fun position => do
    return (position, (← Checked.item edges position).style)
  return (styled.mergeSort fun left right => styleLE left.2 right.2).map (·.1)

/-- The positions of the edges of a direction. -/
def positionsOf (edges : List (Edge α)) (ends : Nat × Nat) : List Nat :=
  (edges.zipIdx.filter fun entry => entry.1.ends = ends).map (·.2)

theorem directionsChecked_eq (edges : List (Edge α)) :
    directionsChecked edges =
      pure ((distinct (edges.map Edge.ends)).map fun ends => (ends, positionsOf edges ends)) := by
  have collected := foldl_book (fun entry : Edge α × Nat => entry.1.ends) ([] : List Nat)
    (fun entry positions => positions ++ [entry.2]) edges.zipIdx
  have keys : edges.zipIdx.map (fun entry => entry.1.ends) = edges.map Edge.ends := by
    conv_rhs => rw [← List.zipIdx_map_fst 0 edges, List.map_map]
    rfl
  have listed (entries : List (Edge α × Nat)) :
      entries.foldl (fun positions entry => positions ++ [entry.2]) [] = entries.map (·.2) := by
    rw [List.foldl_append_eq_append (f := fun entry : Edge α × Nat => [entry.2]), List.nil_append,
      ← List.flatMap_def, List.map_eq_flatMap]
  rw [directionsChecked, Checked.foldlM_eq (fun _ => True) trivial
    (fun groups _ _ _ => Checked.post_eq _ _ _ groups) fun _ _ _ _ => trivial]
  rw [keys] at collected
  simp only [listed] at collected
  exact congrArg pure collected

theorem sortedLanesChecked_eq (edges : List (Edge α)) (ends : Nat × Nat) :
    sortedLanesChecked edges (positionsOf edges ends) = pure (lanes edges ends.1 ends.2) := by
  have found : edges.zipIdx.filter (fun entry => entry.1.ends = ends) =
      edges.zipIdx.filter fun (edge, _) =>
        decide (edge.source = ends.1 ∧ edge.target = ends.2) :=
    List.filter_congr fun entry _ => decide_eq_decide.mpr Prod.ext_iff
  have styled : (positionsOf edges ends).mapM (fun position => do
      return (position, (← Checked.item edges position).style)) =
      (pure ((edges.zipIdx.filter fun entry => entry.1.ends = ends).map fun entry =>
        (entry.2, entry.1.style)) : Checked _) := by
    refine Checked.mapM_ext _ (by simp [positionsOf]) fun place here here' => ?_
    rw [List.length_map] at here'
    have member := List.mem_of_mem_filter (List.getElem_mem here')
    simp only [positionsOf, List.getElem_map,
      Checked.item_eq (List.mem_zipIdx_iff_getElem?.mp member), pure_bind]
  rw [sortedLanesChecked, styled, pure_bind, lanes, ← found]
  refine congrArg pure ?_
  rw [← List.map_mergeSort (r := fun left right => styleLE left.1.style right.1.style)
    fun _ _ _ _ => rfl, List.map_map]
  rfl

variable [Quantity α]

/-! ## Bends -/

/-- The curvatures of the edges of a direction, beside their positions. -/
def bendsChecked (bending : Bending α) (group : List Nat) (forward both : Bool) :
    Checked (List (Nat × α)) := do
  let lastLane ← Checked.minus group.length 1
  let limit := Quantity.abs bending.limit
  group.zipIdx.mapM fun (edge, lane) => do
    let bend ← Checked.clamp (-limit) limit (bending.wanted lane lastLane forward both)
    return (edge, if forward then bend else -bend)

/-- The curvatures of one direction among all of them. -/
def directionBendsChecked (bending : Bending α) (edges : List (Edge α))
    (groups : List ((Nat × Nat) × List Nat)) (ends : Nat × Nat) (positions : List Nat) :
    Checked (List (Nat × α)) := do
  let group ← sortedLanesChecked edges positions
  let both := decide (ends.1 ≠ ends.2) &&
    groups.any fun other => decide (other.1 = (ends.2, ends.1))
  bendsChecked bending group (decide (ends.1 ≤ ends.2)) both

def curvaturesChecked (bending : Bending α) (edges : List (Edge α)) : Checked (List α) := do
  let groups ← directionsChecked edges
  let bends ← groups.mapM fun (ends, positions) =>
    directionBendsChecked bending edges groups ends positions
  bends.flatten.foldlM (fun table (edge, bend) => Checked.put table edge bend)
    (List.replicate edges.length Quantity.zero)

/-- The curvature of the edge at a position. -/
def bendAt (bending : Bending α) (edges : List (Edge α)) (position : Nat) : α :=
  (edges[position]?).elim Quantity.zero (curvature bending edges position)

theorem curvatures_eq_map_range (bending : Bending α) (edges : List (Edge α)) :
    curvatures bending edges = (List.range edges.length).map (bendAt bending edges) := by
  refine List.ext_getElem (by simp [curvatures]) fun position here here' => ?_
  have inside : position < edges.length := by simpa using here'
  simp [curvatures, bendAt, inside]

/-- Whether some edge leads from one node to another. -/
def leads (edges : List (Edge α)) (source target : Nat) : Bool :=
  edges.any fun edge => decide (edge.source = source ∧ edge.target = target)

/-- The curvatures of a direction are those of its edges. -/
theorem bendsChecked_eq {bending : Bending α} {edges : List (Edge α)} {source target : Nat}
    (ordered : -Quantity.abs bending.limit ≤ Quantity.abs bending.limit)
    (known : (source, target) ∈ edges.map Edge.ends) :
    bendsChecked bending (lanes edges source target) (decide (source ≤ target))
        (decide (source ≠ target) && leads edges target source) =
      pure ((lanes edges source target).map fun position =>
        (position, bendAt bending edges position)) := by
  obtain ⟨edge, present, ends⟩ := List.mem_map.mp known
  obtain ⟨rfl, rfl⟩ := Prod.mk.inj ends
  obtain ⟨position, here⟩ := List.mem_iff_getElem?.mp present
  have occupied : 1 ≤ (lanes edges edge.source edge.target).length :=
    List.length_pos_of_mem (mem_lanes_self here)
  rw [bendsChecked, Checked.minus_eq occupied, pure_bind]
  refine Checked.mapM_ext _ (by simp) fun lane inside inside' => ?_
  rw [List.length_zipIdx] at inside
  obtain ⟨other, there, source, target⟩ := mem_lanes.mp (List.getElem_mem inside)
  have first := (nodup_lanes edges edge.source edge.target).idxOf_getElem lane inside
  simp only [List.getElem_zipIdx, List.getElem_map, Nat.zero_add, Checked.clamp_eq ordered,
    pure_bind, bendAt, there, Option.elim_some, curvature, source, target, first,
    Bending.canonical, leads]

theorem directionBendsChecked_eq {bending : Bending α} {edges : List (Edge α)} {ends : Nat × Nat}
    (ordered : -Quantity.abs bending.limit ≤ Quantity.abs bending.limit)
    (known : ends ∈ edges.map Edge.ends) :
    directionBendsChecked bending edges
        ((distinct (edges.map Edge.ends)).map fun ends => (ends, positionsOf edges ends))
        ends (positionsOf edges ends) =
      pure ((lanes edges ends.1 ends.2).map fun position =>
        (position, bendAt bending edges position)) := by
  have opposite :
      (((distinct (edges.map Edge.ends)).map fun ends => (ends, positionsOf edges ends)).any
        fun other => decide (other.1 = (ends.2, ends.1))) = leads edges ends.2 ends.1 := by
    refine Bool.eq_iff_iff.mpr ?_
    simp [leads, Edge.ends]
  rw [directionBendsChecked, sortedLanesChecked_eq, pure_bind, opposite]
  exact bendsChecked_eq ordered known

theorem curvaturesChecked_eq {bending : Bending α}
    (ordered : -Quantity.abs bending.limit ≤ Quantity.abs bending.limit)
    (edges : List (Edge α)) :
    curvaturesChecked bending edges = pure (curvatures bending edges) := by
  have bends : ((distinct (edges.map Edge.ends)).map fun ends =>
      (ends, positionsOf edges ends)).mapM (fun (ends, positions) =>
        directionBendsChecked bending edges ((distinct (edges.map Edge.ends)).map fun ends =>
          (ends, positionsOf edges ends)) ends positions) =
      pure ((distinct (edges.map Edge.ends)).map fun ends => (lanes edges ends.1 ends.2).map
        fun position => (position, bendAt bending edges position)) := by
    refine Checked.mapM_ext _ (by simp) fun place here here' => ?_
    rw [List.length_map] at here here'
    rw [List.getElem_map, List.getElem_map]
    exact directionBendsChecked_eq ordered (mem_distinct.mp (List.getElem_mem here'))
  rw [curvaturesChecked, directionsChecked_eq, pure_bind, bends, pure_bind,
    Checked.replicate_eq_map_range, curvatures_eq_map_range]
  -- A position is put by the direction of its own edge only, with the curvature it has.
  refine Checked.foldlM_put_table ?_ ?_
  · intro entry member
    obtain ⟨group, listed, within⟩ := List.mem_flatten.mp member
    obtain ⟨ends, -, rfl⟩ := List.mem_map.mp listed
    obtain ⟨position, inLane, rfl⟩ := List.mem_map.mp within
    obtain ⟨edge, here, -⟩ := mem_lanes.mp inLane
    exact ⟨(List.getElem?_eq_some_iff.mp here).1, rfl⟩
  · intro position inside
    have here := List.getElem?_eq_getElem inside
    have direction : edges[position].ends ∈ distinct (edges.map Edge.ends) :=
      mem_distinct.mpr (List.mem_map_of_mem (List.getElem_mem inside))
    have inLane := mem_lanes_self here
    refine .inr (List.mem_map.mpr ⟨(position, bendAt bending edges position), ?_, rfl⟩)
    exact List.mem_flatten.mpr ⟨_, List.mem_map_of_mem direction, List.mem_map_of_mem inLane⟩

end ChartCompiler.Network
