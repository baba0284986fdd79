import ChartCompiler.Chart.Sunburst
import ChartCompiler.Proofs.Checked.Pivot
import ChartCompiler.Proofs.Checked.Scalar

/-!
# Sunbursts with their checks

Nodes refer to nodes by position.  While paths are inserted, the roots and the children of every
node stay positions of nodes, and a child stands behind its parent (`Data.Linked`).  So a descent
from a node reaches only nodes, and it ends: with every step fewer nodes are left behind.
-/

set_option autoImplicit false

namespace ChartCompiler.Sunburst

variable {α : Type} [Quantity α]

/-! ## Inserting paths -/

namespace Data

def appendChecked (data : Data α) (parent : Option Nat) (name path : String) :
    Checked (Data α) :=
  let position := data.nodes.length
  let nodes := data.nodes ++ [.fresh name path]
  match parent with
  | none => pure { nodes, roots := data.roots ++ [position] }
  | some parent => do
    let nodes ← Checked.change nodes parent (Node.adopt position)
    return { data with nodes }

def addValueChecked (data : Data α) (position : Nat) (value : α) : Checked (Data α) := do
  let nodes ← Checked.change data.nodes position (Node.grow value)
  return { data with nodes }

def insertBelowChecked (separator : String) (value : α) (parent : Option Nat) (above : String)
    (data : Data α) : List String → Checked (Data α)
  | [] => pure data
  | name :: rest =>
    let path := pathBelow separator above name
    match data.position? path with
    | some position => do
      let grown ← data.addValueChecked position value
      insertBelowChecked separator value (some position) path grown rest
    | none => do
      let position := data.nodes.length
      let grown ← (← data.appendChecked parent name path).addValueChecked position value
      insertBelowChecked separator value (some position) path grown rest

/-- Roots and children are positions of nodes, and a child stands behind its parent. -/
structure Linked (data : Data α) : Prop where
  roots : ∀ root ∈ data.roots, root < data.nodes.length
  children : ∀ position (_ : position < data.nodes.length),
    ∀ child ∈ data.nodes[position].children, position < child ∧ child < data.nodes.length

/-- There is a node at the position of a parent. -/
def Holds (data : Data α) (parent : Option Nat) : Prop :=
  ∀ position, parent = some position → position < data.nodes.length

omit [Quantity α] in
theorem linked_empty : (empty : Data α).Linked :=
  ⟨fun _ => nofun, fun _ => nofun⟩

variable {data : Data α}

theorem length_append (data : Data α) (parent : Option Nat) (name path : String) :
    (data.append parent name path).nodes.length = data.nodes.length + 1 := by
  cases parent <;> simp [Data.append]

/-- Adding values changes no links. -/
theorem Linked.addValue (linked : data.Linked) (position : Nat) (value : α) :
    (data.addValue position value).Linked := by
  have length : (data.addValue position value).nodes.length = data.nodes.length :=
    List.length_modify _ _ _
  refine ⟨fun root member => length ▸ linked.roots root member, fun place inside child member => ?_⟩
  rw [length] at inside ⊢
  refine linked.children place inside child ?_
  simp only [Data.addValue, List.getElem_modify] at member
  split at member
  · exact member
  · exact member

/-- A new node stands behind its parent. -/
theorem Linked.append (linked : data.Linked) {parent : Option Nat} (known : data.Holds parent)
    (name path : String) : (data.append parent name path).Linked := by
  constructor
  · intro root member
    rw [length_append]
    cases parent with
    | some parent => exact Nat.lt_succ_of_lt (linked.roots root member)
    | none =>
        rcases List.mem_append.mp member with before | added
        · exact Nat.lt_succ_of_lt (linked.roots root before)
        · rw [List.mem_singleton.mp added]
          exact Nat.lt_succ_self _
  · intro place inside child member
    rw [length_append] at inside ⊢
    by_cases last : place = data.nodes.length
    · -- The new node has no children yet.
      subst last
      cases parent <;> simp [Data.append, Node.fresh] at member
    · have earlier : place < data.nodes.length := by omega
      have kept (member : child ∈ data.nodes[place].children) :
          place < child ∧ child < data.nodes.length + 1 :=
        (linked.children place earlier child member).imp id Nat.lt_succ_of_lt
      cases parent with
      | none =>
          simp only [Data.append, List.getElem_append_left earlier] at member
          exact kept member
      | some parent =>
          have earlier' :
              place < (data.nodes.modify parent (Node.adopt data.nodes.length)).length := by
            rwa [List.length_modify]
          simp only [Data.append, List.getElem_append_left earlier', List.getElem_modify] at member
          split at member
          · rcases List.mem_append.mp member with before | added
            · exact kept before
            · rw [List.mem_singleton.mp added]
              exact ⟨earlier, Nat.lt_succ_self _⟩
          · exact kept member

theorem appendChecked_eq {parent : Option Nat} (known : data.Holds parent) (name path : String) :
    data.appendChecked parent name path = pure (data.append parent name path) := by
  cases parent with
  | none => rfl
  | some parent =>
      have inside : parent < (data.nodes ++ [Node.fresh name path]).length := by
        rw [List.length_append]
        exact Nat.lt_add_right _ (known parent rfl)
      simp only [appendChecked, Checked.change_eq inside, pure_bind,
        Checked.modify_append_of_lt (known parent rfl), append]

theorem addValueChecked_eq {position : Nat} (inside : position < data.nodes.length) (value : α) :
    data.addValueChecked position value = pure (data.addValue position value) := by
  rw [addValueChecked, Checked.change_eq inside, pure_bind]
  rfl

/-- A path is inserted below a node, and the forest stays linked. -/
theorem insertBelowChecked_eq (separator : String) (value : α) (path : List String)
    {parent : Option Nat} (above : String) (linked : data.Linked) (known : data.Holds parent) :
    data.insertBelowChecked separator value parent above path =
      pure (data.insertBelow separator value parent above path) ∧
    (data.insertBelow separator value parent above path).Linked := by
  induction path generalizing data parent above with
  | nil => exact ⟨rfl, linked⟩
  | cons name rest ih =>
      rw [insertBelowChecked, insertBelow]
      cases found : data.position? (pathBelow separator above name) with
      | some position =>
          have inside : position < data.nodes.length :=
            (List.findIdx?_eq_some_iff_getElem.mp found).1
          simp only [addValueChecked_eq inside, pure_bind]
          refine ih _ (linked.addValue position value) fun place here => ?_
          cases here
          simpa [Data.addValue] using inside
      | none =>
          have inside : data.nodes.length <
              (data.append parent name (pathBelow separator above name)).nodes.length := by
            rw [length_append]
            exact Nat.lt_succ_self _
          simp only [appendChecked_eq known, pure_bind, addValueChecked_eq inside]
          refine ih _ ((linked.append known _ _).addValue _ value) fun place here => ?_
          cases here
          simpa [Data.addValue] using inside

end Data

def ofRowsChecked (rows : List Record) (config : Config) : Checked (Data α) :=
  match fields? rows config with
  | none => pure .empty
  | some (pathField, valueField) =>
    let separator := separator config
    (rows.filterMap (leaf? separator pathField valueField)).foldlM
      (fun data (path, value) => data.insertBelowChecked separator value none "" path) .empty

/-- Paths are inserted from the roots on. -/
theorem insertChecked_eq {data : Data α} (linked : data.Linked) (separator : String)
    (path : List String) (value : α) :
    data.insertBelowChecked separator value none "" path =
        pure (data.insert separator path value) ∧ (data.insert separator path value).Linked :=
  data.insertBelowChecked_eq separator value path "" linked fun _ => nofun

theorem ofRowsChecked_eq (rows : List Record) (config : Config) :
    ofRowsChecked rows config = (pure (ofRows rows config) : Checked (Data α)) := by
  rw [ofRowsChecked, ofRows]
  cases fields? rows config with
  | none => rfl
  | some found =>
      exact Checked.foldlM_eq Data.Linked Data.linked_empty
        (fun _ (path, value) _ linked => (insertChecked_eq linked _ path value).1)
        (fun _ (path, value) _ linked => (insertChecked_eq linked _ path value).2)

theorem linked_ofRows (rows : List Record) (config : Config) :
    (ofRows rows config : Data α).Linked := by
  rw [ofRows]
  cases fields? rows config with
  | none => exact Data.linked_empty
  | some found =>
      refine List.foldlRecOn _ _ Data.linked_empty fun _ linked (path, value) _ => ?_
      exact (insertChecked_eq linked _ path value).2

/-! ## The option -/

/-- `item` with its checks; it fails when the fuel runs out. -/
def itemChecked (data : Data Float) (writer : TooltipWriter) (color : String) :
    Nat → Float → Nat → Checked Json
  | 0, _, _ => throw .depth
  | fuel + 1, above, position => do
    let node ← Checked.item data.nodes position
    let children ← node.children.mapM (itemChecked data writer color fuel node.value)
    return nodeItem writer color above (data.roots.contains position) node children

/-- Below a node there are no more levels than nodes behind it. -/
theorem itemChecked_eq {data : Data Float} (linked : data.Linked) (writer : TooltipWriter)
    (color : String) (fuel : Nat) (above : Float) {position : Nat}
    (inside : position < data.nodes.length) (enough : data.nodes.length ≤ fuel + position) :
    itemChecked data writer color fuel above position =
      pure (item data writer color fuel above position) := by
  induction fuel generalizing above position with
  | zero => omega
  | succ fuel ih =>
      have children := Checked.mapM_eq fun child member =>
        have below := linked.children position inside child member
        ih data.nodes[position].value below.2 (by omega)
      rw [itemChecked, item, Checked.item_of_lt inside, pure_bind, children, pure_bind,
        List.getElem?_eq_getElem inside]

def totalChecked (data : Data α) : Checked α := do
  let roots ← pickChecked data.roots data.nodes
  return Quantity.sum (roots.map (·.value))

theorem totalChecked_eq {data : Data α} (linked : data.Linked) :
    totalChecked data = pure (total data) := by
  rw [totalChecked, pickChecked_eq linked.roots, pure_bind, pick, List.map_filterMap]
  rfl

def optionChecked (data : Data Float) (config : Config) (dark : Bool) : Checked (Option Json) :=
  if data.roots.isEmpty then pure none
  else do
    let writer := TooltipWriter.forMode (ValueFormatter.ofConfig config) dark
    let colors ← config.seriesColorsChecked data.roots.length dark
    let total ← totalChecked data
    let trees ← (data.roots.zip colors).mapM fun (root, color) =>
      itemChecked data writer color data.nodes.length total root
    return some (around trees colors config dark)

theorem optionChecked_eq {data : Data Float} (linked : data.Linked) (config : Config)
    (dark : Bool) : optionChecked data config dark = pure (option? data config dark) := by
  simp only [optionChecked, option?, Config.seriesColorsChecked_eq, totalChecked_eq linked,
    pure_bind]
  split
  · rfl
  · rw [Checked.mapM_ext (List.zipWith _ data.roots _), pure_bind]
    · simp
    · intro place here here'
      rw [List.getElem_zip, List.getElem_zipWith]
      exact itemChecked_eq linked _ _ _ _ (linked.roots _ (List.getElem_mem _))
        (Nat.le_add_right _ _)

end ChartCompiler.Sunburst
