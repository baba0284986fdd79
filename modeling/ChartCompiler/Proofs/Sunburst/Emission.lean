import ChartCompiler.Proofs.Axis.Alignment
import ChartCompiler.Proofs.Checked.Sunburst
import ChartCompiler.Proofs.Json.Members
import ChartCompiler.Proofs.Sunburst.Totals

/-!
# Every node once

The nodes of a sunburst stand in one list and refer to their children by position.  They are a
forest (`Data.IsForest`): every position is that of a root or of one child, a child stands behind
its parent, and siblings are in the order in which their paths first come up.

The option is written by a descent from each root.  In a forest a descent ends, because every step
leads further back, and the descents from all roots together come upon every node once
(`Data.IsForest.descents_perm`).  A node is come upon as often as it is a root and as often as its
parents are come upon, so this follows from the first node on.
-/

set_option autoImplicit false

namespace ChartCompiler.Sunburst

/-! ## Forests -/

section Forest

variable {α : Type}

namespace Data

/-- The positions of the children of the node at a position. -/
def childrenAt (data : Data α) (position : Nat) : List Nat :=
  ((data.nodes[position]?).map Node.children).getD []

/-- The paths of the nodes at some positions. -/
def pathsAt (data : Data α) (positions : List Nat) : List String :=
  positions.filterMap fun position => (data.nodes[position]?).map Node.path

/-- Whether the nodes for some paths, given as often as they come up, are a forest. -/
structure IsForest (data : Data α) (visited : List String) : Prop where
  /-- Every node is a root or a child, and once only. -/
  once : (data.roots ++ data.nodes.flatMap Node.children).Perm (List.range data.nodes.length)
  /-- A child stands behind its parent. -/
  behind : ∀ parent, ∀ child ∈ data.childrenAt parent, parent < child
  /-- The nodes are in the order in which their paths first come up. -/
  paths : FirstSeen (data.nodes.map Node.path) visited
  /-- No two nodes have the same path. -/
  distinct : (data.nodes.map Node.path).Nodup
  /-- The roots are in the order in which their paths first come up. -/
  roots : SeenAmong (data.pathsAt data.roots) visited
  /-- The children of a node are in the order in which their paths first come up. -/
  children : ∀ parent, SeenAmong (data.pathsAt (data.childrenAt parent)) visited

/-- The positions of a node and of the nodes below it, parents first, down to some depth. -/
def descent (data : Data α) : Nat → Nat → List Nat
  | 0, _ => []
  | depth + 1, position => position :: (data.childrenAt position).flatMap (data.descent depth)

/-- The positions that the descents from all roots come upon. -/
def descents (data : Data α) : List Nat :=
  data.roots.flatMap (data.descent data.nodes.length)

variable {data : Data α}

theorem childrenAt_of_getElem? {position : Nat} {node : Node α}
    (found : data.nodes[position]? = some node) : data.childrenAt position = node.children := by
  rw [childrenAt, found]
  rfl

theorem map_children_eq (data : Data α) :
    data.nodes.map Node.children = (List.range data.nodes.length).map data.childrenAt := by
  refine List.ext_getElem (by simp) fun position here here' => ?_
  rw [List.length_map] at here
  rw [List.getElem_map, List.getElem_map, List.getElem_range,
    childrenAt_of_getElem? (List.getElem?_eq_getElem here)]

namespace IsForest

variable {visited : List String} (forest : data.IsForest visited)

include forest

theorem lt_of_mem_roots {position : Nat} (root : position ∈ data.roots) :
    position < data.nodes.length :=
  List.mem_range.mp (forest.once.subset (List.mem_append_left _ root))

theorem lt_of_mem_childrenAt {parent child : Nat} (below : child ∈ data.childrenAt parent) :
    child < data.nodes.length := by
  cases found : data.nodes[parent]? with
  | none => simp [childrenAt, found] at below
  | some node =>
      rw [childrenAt_of_getElem? found] at below
      have listed := List.mem_flatMap.mpr ⟨node, List.mem_of_getElem? found, below⟩
      exact List.mem_range.mp (forest.once.subset (List.mem_append_right _ listed))

omit forest in
/-- What is said of the descents from single nodes holds of those from several ones. -/
theorem flatMap_descent_perm {depth : Nat} {positions : List Nat}
    (each : ∀ position ∈ positions, (data.descent depth position).Perm
      (position :: (data.descent depth position).flatMap data.childrenAt)) :
    (positions.flatMap (data.descent depth)).Perm
      (positions ++ (positions.flatMap (data.descent depth)).flatMap data.childrenAt) := by
  have parted := List.map_append_flatMap_perm positions id fun position =>
    (data.descent depth position).flatMap data.childrenAt
  rw [List.map_id, ← List.flatMap_assoc] at parted
  exact (List.Perm.flatMap_left _ each).trans parted.symm

/-- A descent that is deep enough comes upon its start and upon the children of all nodes that it
comes upon. -/
theorem descent_perm {depth position : Nat} (inside : position < data.nodes.length)
    (enough : data.nodes.length ≤ depth + position) :
    (data.descent depth position).Perm
      (position :: (data.descent depth position).flatMap data.childrenAt) := by
  induction depth generalizing position with
  | zero => omega
  | succ depth ih =>
      apply List.Perm.cons
      apply flatMap_descent_perm
      intro child member
      have further := forest.behind position child member
      exact ih (forest.lt_of_mem_childrenAt member) (by omega)

theorem descents_perm_append :
    data.descents.Perm (data.roots ++ data.descents.flatMap data.childrenAt) := by
  apply flatMap_descent_perm
  intro root member
  exact forest.descent_perm (forest.lt_of_mem_roots member) (Nat.le_add_right _ _)

theorem lt_of_mem_descents {position : Nat} (reached : position ∈ data.descents) :
    position < data.nodes.length := by
  rcases List.mem_append.mp (forest.descents_perm_append.subset reached) with root | below
  · exact forest.lt_of_mem_roots root
  · obtain ⟨parent, -, child⟩ := List.mem_flatMap.mp below
    exact forest.lt_of_mem_childrenAt child

/-- The descents come upon a node as often as it is a root, and as often as they come upon a parent
of it. -/
theorem count_descents (position : Nat) :
    data.descents.count position = data.roots.count position +
      ((List.range data.nodes.length).map fun parent =>
        data.descents.count parent * (data.childrenAt parent).count position).sum := by
  rw [forest.descents_perm_append.count_eq, List.count_append, List.count_flatMap]
  congr 1
  apply sum_map_count List.nodup_range
  intro parent reached
  exact List.mem_range.mpr (forest.lt_of_mem_descents reached)

/-- A node is a root or has one parent. -/
theorem count_eq_one {position : Nat} (inside : position < data.nodes.length) :
    data.roots.count position +
      ((List.range data.nodes.length).map fun parent =>
        (data.childrenAt parent).count position).sum = 1 := by
  have once := forest.once.count_eq position
  rw [List.count_append, List.flatMap_def, map_children_eq, ← List.flatMap_def, List.count_flatMap,
    List.count_eq_one_of_mem List.nodup_range (List.mem_range.mpr inside)] at once
  exact once

/-- **The descents from the roots come upon every node once.** -/
theorem descents_perm : data.descents.Perm (List.range data.nodes.length) := by
  have once {position : Nat} (inside : position < data.nodes.length) :
      data.descents.count position = 1 := by
    induction position using Nat.strong_induction_on with
    | _ position ih =>
        -- Whoever has the node as a child stands before it and is come upon once.
        have weights : ∀ parent ∈ List.range data.nodes.length,
            data.descents.count parent * (data.childrenAt parent).count position =
              (data.childrenAt parent).count position := by
          intro parent known
          by_cases child : position ∈ data.childrenAt parent
          · rw [ih parent (forest.behind parent position child) (List.mem_range.mp known), one_mul]
          · rw [List.count_eq_zero_of_not_mem child, mul_zero]
        rw [forest.count_descents, List.map_congr_left weights, forest.count_eq_one inside]
  apply List.perm_iff_count.mpr
  intro position
  by_cases inside : position < data.nodes.length
  · rw [once inside, List.count_eq_one_of_mem List.nodup_range (List.mem_range.mpr inside)]
  · rw [List.count_eq_zero_of_not_mem (mt forest.lt_of_mem_descents inside),
      List.count_eq_zero_of_not_mem (mt List.mem_range.mp inside)]

end IsForest

end Data

end Forest

/-! ## The forest of some visits -/

section Table

variable {α : Type} [Quantity α] {separator : String} {visits : List (Visit α)}

end Table

/-! ## The option -/

/-- An item and the items below it, parents first, down to some depth. -/
def itemsBelow : Nat → Json → List Json
  | 0, _ => []
  | depth + 1, item => item :: (item.itemsAt "children").flatMap (itemsBelow depth)

/-- The trees that the option of a sunburst shows. -/
def treesOf (option : Json) : List Json :=
  ((option.itemsAt "series").headD .null).itemsAt "data"

section Trees

variable {data : Data Float} {writer : TooltipWriter} {color : String}

/-- Whether an item is the option of the node at a position, around as many items as the node has
children. -/
def Data.Paints (data : Data Float) (writer : TooltipWriter) (position : Nat) (item : Json) :
    Prop :=
  ∃ node color above children, data.nodes[position]? = some node ∧
    children.length = node.children.length ∧
      item = nodeItem writer color above (data.roots.contains position) node children

theorem itemsAt_children_nodeItem (above : Float) (isRoot : Bool) (node : Node Float)
    (children : List Json) :
    (nodeItem writer color above isRoot node children).itemsAt "children" = children := by
  cases children with
  | nil =>
      rw [nodeItem, Json.setIf, if_neg (by simp), Json.itemsAt,
        Json.member?_setIf_of_ne (by decide)]
      simp
  | cons first rest =>
      cases isRoot <;>
        simp [nodeItem, Json.setIf, Json.set, Json.record, Json.itemsAt, Json.member?,
          Json.members?, Members.find?_insert, Json.items?]

theorem treesOf_around (trees : List Json) (colors : List String) (config : Config) (dark : Bool) :
    treesOf (around trees colors config dark) = trees := by
  simp [treesOf, around, Json.itemsAt, Json.items?]

/-- A limit of depth makes no difference to a descent that ends before it. -/
theorem item_limit (linked : data.Linked) {limit limit' position : Nat} (above : Float)
    (inside : position < data.nodes.length) (enough : data.nodes.length ≤ limit + position)
    (enough' : data.nodes.length ≤ limit' + position) :
    item data writer color limit above position = item data writer color limit' above position := by
  induction limit generalizing limit' above position with
  | zero => omega
  | succ limit ih =>
      cases limit' with
      | zero => omega
      | succ limit' =>
          simp only [item, List.getElem?_eq_getElem inside]
          congr 1
          apply List.map_congr_left
          intro child member
          have below := linked.children position inside child member
          exact ih data.nodes[position].value below.2 (by omega) (by omega)

/-- A tree shows the nodes that the descent comes upon, in the same order.  None of the three limits
of depth is reached. -/
theorem paints_item (linked : data.Linked) {depth reach limit position : Nat} (above : Float)
    (inside : position < data.nodes.length) (deep : data.nodes.length ≤ depth + position)
    (reaching : data.nodes.length ≤ reach + position)
    (enough : data.nodes.length ≤ limit + position) :
    List.Forall₂ (data.Paints writer) (data.descent reach position)
      (itemsBelow depth (item data writer color limit above position)) := by
  induction depth generalizing reach limit above position with
  | zero => omega
  | succ depth ih =>
      obtain ⟨reach, rfl⟩ := Nat.exists_eq_succ_of_ne_zero (by omega : reach ≠ 0)
      obtain ⟨limit, rfl⟩ := Nat.exists_eq_succ_of_ne_zero (by omega : limit ≠ 0)
      have here := List.getElem?_eq_getElem inside
      rw [Data.descent, itemsBelow, item, here, Data.childrenAt_of_getElem? here]
      dsimp only
      rw [itemsAt_children_nodeItem]
      refine .cons ⟨_, color, above, _, here, List.length_map _, rfl⟩ ?_
      have paired : List.Forall₂ (fun child tree => child ∈ data.nodes[position].children ∧
          tree = item data writer color limit data.nodes[position].value child)
            data.nodes[position].children (data.nodes[position].children.map
              (item data writer color limit data.nodes[position].value)) :=
        List.forall₂_map_right_iff.mpr (List.forall₂_same.mpr fun child member => ⟨member, rfl⟩)
      apply List.rel_flatMap paired
      rintro child _ ⟨member, rfl⟩
      have below := linked.children position inside child member
      exact ih data.nodes[position].value below.2 (by omega) (by omega) (by omega)

/-- What the option of a sunburst shows. -/
structure Data.Shows (data : Data Float) (config : Config) (dark : Bool) : Prop where
  /-- There is an option unless there are no nodes. -/
  drawn : option? data config dark = none ↔ data.nodes = []
  /-- The descent from a root ends: a limit of depth is not reached if it is the number of nodes or
  more, and the tree does not depend on it. -/
  ends : ∀ writer color above, ∀ root ∈ data.roots, ∃ tree, ∀ limit, data.nodes.length ≤ limit →
    itemChecked data writer color limit above root = pure tree
  /-- The items are the options of all nodes, one for each node. -/
  once : ∃ positions, positions.Perm (List.range data.nodes.length) ∧
    ∀ option ∈ option? data config dark, ∀ depth, data.nodes.length ≤ depth →
      List.Forall₂ (data.Paints (.forMode (.ofConfig config) dark)) positions
        ((treesOf option).flatMap (itemsBelow depth))

variable {visited : List String} {config : Config} {dark : Bool}

/-- There are roots as soon as there are nodes. -/
theorem Data.IsForest.roots_eq_nil_iff (forest : data.IsForest visited) :
    data.roots = [] ↔ data.nodes = [] := by
  constructor
  · intro none
    have reached := forest.descents_perm.length_eq
    rw [descents, none, List.flatMap_nil, List.length_range] at reached
    exact List.eq_nil_of_length_eq_zero reached.symm
  · intro none
    apply List.eq_nil_iff_forall_not_mem.mpr
    intro root member
    have inside := forest.lt_of_mem_roots member
    rw [none] at inside
    cases inside

/-- **The option of a forest shows every node once.** -/
theorem Data.IsForest.shows (forest : data.IsForest visited) (linked : data.Linked) :
    data.Shows config dark where
  drawn := by
    rw [← forest.roots_eq_nil_iff, option?, ite_eq_left_iff, List.isEmpty_iff]
    simp
  ends := by
    intro writer color above root member
    have inside := linked.roots root member
    refine ⟨item data writer color data.nodes.length above root, fun limit enough => ?_⟩
    rw [itemChecked_eq linked writer color limit above inside (by omega),
      item_limit linked above inside (by omega) (Nat.le_add_right _ _)]
  once := by
    refine ⟨data.descents, forest.descents_perm, fun option drawn depth deep => ?_⟩
    rw [Option.mem_def, option?] at drawn
    split at drawn
    · cases drawn
    · obtain rfl := Option.some.inj drawn
      rw [treesOf_around]
      -- A tree belongs to the root at its place, whatever the color.
      let tree (root : Nat) (color : String) : Json :=
        item data (.forMode (.ofConfig config) dark) color data.nodes.length (total data) root
      have paired : List.Forall₂ (fun root drawn => root ∈ data.roots ∧ ∃ color,
          drawn = tree root color) data.roots
            (List.zipWith tree data.roots (config.seriesColors data.roots.length dark)) := by
        refine List.forall₂_of_length_eq_of_get (by simp [length_seriesColors]) ?_
        intro place here here'
        rw [List.get_eq_getElem, List.get_eq_getElem, List.getElem_zipWith]
        exact ⟨List.getElem_mem here, _, rfl⟩
      apply List.rel_flatMap paired
      rintro root _ ⟨member, color, rfl⟩
      exact paints_item linked (total data) (linked.roots root member)
        (Nat.le_trans deep (Nat.le_add_right _ _)) (Nat.le_add_right _ _) (Nat.le_add_right _ _)

end Trees

/-- The rows name an inner node first and the node below it last. -/
example : (ofRows branches {} : Data Float).nodes.map Node.path =
      ["defi", "defi/dex", "defi/lending", "nft", "defi/dex/amm"] ∧
    (ofRows branches {} : Data Float).descents = [0, 1, 4, 2, 3] := by
  decide +kernel

end ChartCompiler.Sunburst
