import ChartCompiler.Proofs.Sunburst.Forest

/-!
# Names on the way to a node

A node of a forest is found by following names from a root (`Data.Named`).  Every node of a table is
found so (`named_of_mem`), and the names that lead to a node spell its text (`getElem?_of_named`).
The names need not be the path that the text came from first, and they need not be the path of any
row: paths that are spelled alike lead to one node.
-/

set_option autoImplicit false

namespace ChartCompiler.Sunburst

variable {α : Type}

/-- The names on the way from a root to the node at a position. -/
inductive Data.Named (data : Data α) : List String → Nat → Prop where
  | root {position : Nat} {node : Node α} (root : position ∈ data.roots)
      (found : data.nodes[position]? = some node) : Named data [node.name] position
  | child {trail : List String} {parent position : Nat} {above node : Node α}
      (named : Named data trail parent) (held : data.nodes[parent]? = some above)
      (child : position ∈ above.children) (found : data.nodes[position]? = some node) :
      Named data (trail ++ [node.name]) position

theorem Data.Named.ne_nil {data : Data α} {trail : List String} {position : Nat}
    (named : data.Named trail position) : trail ≠ [] := by
  cases named with
  | root => exact List.cons_ne_nil _ _
  | child => exact List.concat_ne_nil _ _

section Texts

variable {separator : String} {visits : List (Visit α)} {path : String} {position : Nat}
  {parent : Option String}

/-! ## Where texts come from -/

/-- A text comes from a visit that is spelled so. -/
theorem origin_of_mem (known : path ∈ paths separator visits) :
    ∃ visit ∈ visits, visit.trail = origin separator visits path ∧
      visit.path separator = path := by
  obtain ⟨earlier, member, spelled⟩ := mem_paths.mp known
  cases found : visits.find? (·.path separator = path) with
  | none =>
      have apart := List.find?_eq_none.mp found earlier member
      exact absurd (decide_eq_true spelled) apart
  | some visit =>
      refine ⟨visit, List.mem_of_find?_eq_some found, ?_, ?_⟩
      · rw [origin, found]
        rfl
      · have spelled := List.find?_some found
        exact of_decide_eq_true spelled

theorem joined_origin (known : path ∈ paths separator visits) :
    joined separator (origin separator visits path) = path := by
  obtain ⟨visit, -, same, spelled⟩ := origin_of_mem known
  rw [← same]
  exact spelled

theorem origin_ne_nil (begun : ∀ visit ∈ visits, visit.trail ≠ [])
    (known : path ∈ paths separator visits) :
    origin separator visits path ≠ [] := by
  obtain ⟨visit, member, same, -⟩ := origin_of_mem known
  exact same ▸ begun visit member

theorem mem_positionsBelow : position ∈ positionsBelow separator visits parent ↔
    ∃ path ∈ paths separator visits, above separator visits path = parent ∧
      (paths separator visits).idxOf path = position := by
  simp only [positionsBelow, List.mem_map, List.mem_filter, decide_eq_true_eq, and_assoc]

/-! ## The nodes of the table -/

variable [Quantity α]

theorem nodes_table (position : Nat) : (table separator visits).nodes[position]? =
    ((paths separator visits)[position]?).map (nodeOf separator visits) :=
  List.getElem?_map

theorem node_of_mem (known : path ∈ paths separator visits) :
    (table separator visits).nodes[(paths separator visits).idxOf path]? =
      some (nodeOf separator visits path) := by
  rw [nodes_table, List.getElem?_idxOf known, Option.map_some]

/-- A node below another one, or a root, is the node of a text that is placed there. -/
theorem node_of_mem_positionsBelow {node : Node α}
    (below : position ∈ positionsBelow separator visits parent)
    (found : (table separator visits).nodes[position]? = some node) :
    ∃ path ∈ paths separator visits, above separator visits path = parent ∧
      (paths separator visits)[position]? = some path ∧ node = nodeOf separator visits path := by
  obtain ⟨path, known, isAbove, rfl⟩ := mem_positionsBelow.mp below
  rw [node_of_mem known] at found
  exact ⟨path, known, isAbove, List.getElem?_idxOf known, (Option.some.inj found).symm⟩

/-- A node is named by its way from a root. -/
theorem named_of_mem (closed : Closed separator visits) (known : path ∈ paths separator visits) :
    ∃ trail, (table separator visits).Named trail ((paths separator visits).idxOf path) := by
  induction place : (paths separator visits).idxOf path using Nat.strong_induction_on
    generalizing path with
  | _ position ih =>
      subst place
      cases isAbove : above separator visits path with
      | none =>
          exact ⟨_, .root (mem_positionsBelow.mpr ⟨path, known, isAbove, rfl⟩) (node_of_mem known)⟩
      | some parent =>
          obtain ⟨there, before⟩ := closed path known parent isAbove
          obtain ⟨trail, named⟩ := ih _ before there rfl
          exact ⟨_, named.child (node_of_mem there)
            (mem_positionsBelow.mpr ⟨path, known, isAbove, rfl⟩) (node_of_mem known)⟩

section Begun

variable (begun : ∀ visit ∈ visits, visit.trail ≠ [])

include begun

/-- The name of a node comes last in the path that it came from. -/
theorem origin_eq_concat (known : path ∈ paths separator visits) :
    (origin separator visits path).dropLast ++ [(nodeOf separator visits path).name] =
      origin separator visits path := by
  have nonempty := origin_ne_nil begun known
  have last : (nodeOf separator visits path).name =
      (origin separator visits path).getLast nonempty := by
    show (origin separator visits path).getLastD "" = _
    rw [List.getLastD_eq_getLast?, List.getLast?_eq_some_getLast nonempty, Option.getD_some]
  rw [last, List.dropLast_append_getLast]

/-- The names on the way to a node spell its text. -/
theorem getElem?_of_named {trail : List String}
    (named : (table separator visits).Named trail position) :
    (paths separator visits)[position]? = some (joined separator trail) := by
  induction named with
  | root root found =>
      obtain ⟨path, known, isAbove, here, rfl⟩ := node_of_mem_positionsBelow root found
      have whole := origin_eq_concat begun known
      rw [place_eq_none_iff.mp isAbove, List.nil_append] at whole
      rw [here, whole, joined_origin known]
  | child named held child found ih =>
      rw [nodes_table, ih] at held
      obtain rfl := Option.some.inj held
      obtain ⟨path, known, isAbove, here, rfl⟩ := node_of_mem_positionsBelow child found
      have whole := origin_eq_concat begun known
      rw [here, joined_append_singleton, ← (place_eq_some_iff.mp isAbove).2,
        ← joined_append_singleton, whole, joined_origin known]

end Begun

end Texts

end ChartCompiler.Sunburst
