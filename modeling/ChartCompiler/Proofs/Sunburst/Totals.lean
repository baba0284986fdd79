import ChartCompiler.Proofs.Sunburst.Names
import Mathlib.Algebra.BigOperators.Group.List.Lemmas
import Mathlib.Algebra.Order.BigOperators.Group.List
import Mathlib.Algebra.Order.Ring.Rat

/-!
# What the nodes of a sunburst add up

The value of a node should be that of its children together with that of the rows that end there,
and so the sum over all rows whose path passes through it (`Data.Tallies`).  Nodes are told apart by
the texts of their paths, so this holds exactly when no two paths of the rows are spelled alike
(`tallies_table_iff`): otherwise the rows of both paths are counted at one node, which only one of
the paths leads to.

Every sum over the nodes is a sum over visits, and every sum over visits is a sum over rows
(`sum_visits`), where a row counts once if its path begins with the trail in question.
-/

set_option autoImplicit false

namespace ChartCompiler.Sunburst

/-! ## What should add up -/

section Tallies

variable {α : Type}

/-- The values of the nodes at some positions. -/
def Data.valuesAt (data : Data α) (positions : List Nat) : List α :=
  positions.filterMap fun position => (data.nodes[position]?).map Node.value

/-- Whether no two beginnings of the paths of some rows are spelled alike. -/
def Unambiguous (separator : String) (leaves : List (List String × α)) : Prop :=
  ∀ first ∈ leaves, ∀ second ∈ leaves, ∀ trail ∈ trails first.1, ∀ trail' ∈ trails second.1,
    joined separator trail = joined separator trail' → trail = trail'

/-- What the values of a forest of some rows should be. -/
structure Data.Tallies (data : Data ℚ) (leaves : List (List String × ℚ)) : Prop where
  /-- Names lead from a root to every node. -/
  named : ∀ position < data.nodes.length, ∃ trail, data.Named trail position
  /-- A node has the values of its children and of the rows that end at it. -/
  children {position : Nat} {node : Node ℚ} {trail : List String} :
    data.nodes[position]? = some node → data.Named trail position →
      node.value = (data.valuesAt node.children).sum +
        ((leaves.filter (·.1 = trail)).map Prod.snd).sum
  /-- A node has the values of all rows that pass through it. -/
  through {position : Nat} {node : Node ℚ} {trail : List String} :
    data.nodes[position]? = some node → data.Named trail position →
      node.value = ((leaves.filter (trail <+: ·.1)).map Prod.snd).sum
  /-- The roots have the values of all rows. -/
  roots : total data = (leaves.map Prod.snd).sum

end Tallies

/-! ## Sums over visits -/

section Sums

theorem sum_map_filter {ε : Type} (chosen : ε → Bool) (weight : ε → ℚ) (entries : List ε) :
    ((entries.filter chosen).map weight).sum =
      (entries.map fun entry => if chosen entry then weight entry else 0).sum := by
  induction entries with
  | nil => rfl
  | cons entry rest ih => by_cases taken : chosen entry <;> simp [taken, ih]

variable {leaves : List (List String × ℚ)}

/-- A sum over visits, row by row. -/
theorem sum_visits (chosen : List String → Bool) :
    (((visits leaves).filter fun visit => chosen visit.trail).map Visit.value).sum =
      (leaves.map fun leaf =>
        ((trails leaf.1).map fun trail => if chosen trail then leaf.2 else 0).sum).sum := by
  rw [sum_map_filter]
  induction leaves with
  | nil => rfl
  | cons leaf rest ih =>
      have first : visits (leaf :: rest) = visitsBelow [] leaf.2 leaf.1 ++ visits rest := rfl
      rw [first, List.map_append, List.sum_append, ih, List.map_cons, List.sum_cons, visitsBelow,
        List.map_map]
      rfl

/-- A path passes once through each of its beginnings. -/
theorem sum_trails_eq {trail : List String} (nonempty : trail ≠ []) (path : List String)
    (value : ℚ) : ((trails path).map fun other => if other = trail then value else 0).sum =
      if trail <+: path then value else 0 := by
  have turned : (fun other => if other = trail then value else 0) =
      fun other => if trail = other then value else 0 :=
    funext fun other => if_congr eq_comm rfl rfl
  rw [turned]
  refine (sum_map_ite_key (nodup_trails path) trail value).trans ?_
  by_cases begins : trail <+: path
  · rw [if_pos begins, if_pos (mem_trails.mpr ⟨nonempty, begins⟩)]
  · rw [if_neg begins, if_neg fun member => begins (mem_trails.mp member).2]

/-- A path goes on once from each of its beginnings, except from itself. -/
theorem sum_trails_dropLast (path trail : List String) (value : ℚ) :
    ((trails path).map fun other => if other.dropLast = trail then value else 0).sum =
      if trail <+: path ∧ trail ≠ path then value else 0 := by
  induction path generalizing trail with
  | nil => cases trail <;> simp [trails]
  | cons name rest ih =>
      have further (other : List String) (member : other ∈ trails rest) :
          (name :: other).dropLast = name :: other.dropLast :=
        List.dropLast_cons_of_ne_nil (mem_trails.mp member).1
      rw [trails, List.map_cons, List.sum_cons, List.map_map]
      cases trail with
      | nil =>
          have none : (trails rest).map ((fun other => if other.dropLast = [] then value else 0) ∘
              (name :: ·)) = (trails rest).map fun _ => 0 :=
            List.map_congr_left fun other member => by simp [further other member]
          rw [none]
          simp
      | cons first others =>
          have same : (trails rest).map
              ((fun other => if other.dropLast = first :: others then value else 0) ∘
                (name :: ·)) =
              (trails rest).map fun other =>
                if name = first then (if other.dropLast = others then value else 0) else 0 :=
            List.map_congr_left fun other member => by
              simp [further other member, ite_and]
          rw [same]
          by_cases here : name = first
          · subst here
            simp [ih, List.cons_prefix_cons]
          · simp [here, Ne.symm here, List.cons_prefix_cons]

end Sums

/-! ## The nodes of the table -/

section Table

variable {separator : String} {visits : List (Visit ℚ)} {path : String} {position : Nat}
  {parent : Option String}

theorem value_nodeOf : (nodeOf separator visits path).value =
    ((visits.filter (·.path separator = path)).map Visit.value).sum :=
  Quantity.total_rat _

/-- The values of the nodes below a node, or of the roots, are those of the visits to them. -/
theorem sum_valuesAt : ((table separator visits).valuesAt
      (positionsBelow separator visits parent)).sum =
    ((visits.filter fun visit => above separator visits (visit.path separator) = parent).map
      Visit.value).sum := by
  have picked : (table separator visits).valuesAt (positionsBelow separator visits parent) =
      ((paths separator visits).filter fun path => above separator visits path = parent).map
        fun path => ((visits.filter (·.path separator = path)).map Visit.value).sum := by
    rw [Data.valuesAt, positionsBelow, List.filterMap_map, ← List.filterMap_eq_map]
    refine List.filterMap_congr fun path member => ?_
    simp only [Function.comp_apply, node_of_mem (List.mem_of_mem_filter member), Option.map_some,
      value_nodeOf]
  rw [picked]
  exact sum_map_sum_filter (Visit.path separator) Visit.value _ (nodup_paths _ _) visits
    fun visit member => mem_paths.mpr ⟨visit, member, rfl⟩

end Table

/-! ## The law -/

section Law

variable {separator : String} {leaves : List (List String × ℚ)}

theorem mem_visits {visit : Visit ℚ} : visit ∈ visits leaves ↔
    ∃ leaf ∈ leaves, visit.trail ∈ trails leaf.1 ∧ visit.value = leaf.2 := by
  simp only [visits, visitsBelow, List.mem_flatMap, List.mem_map, List.nil_append]
  constructor
  · rintro ⟨leaf, member, trail, begins, rfl⟩
    exact ⟨leaf, member, begins, rfl⟩
  · rintro ⟨leaf, member, begins, same⟩
    exact ⟨leaf, member, visit.trail, begins, same ▸ rfl⟩

theorem trail_ne_nil : ∀ visit ∈ visits leaves, visit.trail ≠ [] := by
  intro visit member
  obtain ⟨leaf, -, begins, -⟩ := mem_visits.mp member
  exact (mem_trails.mp begins).1

/-- The visits along a path are those of the rows that pass through its end. -/
theorem sum_passing {trail : List String} (nonempty : trail ≠ []) :
    (((visits leaves).filter fun visit => visit.trail = trail).map Visit.value).sum =
      ((leaves.filter (trail <+: ·.1)).map Prod.snd).sum := by
  rw [sum_visits fun other => other = trail, sum_map_filter]
  simp only [decide_eq_true_eq, sum_trails_eq nonempty]

/-- A row that passes through a node has passed through the one above it. -/
theorem exists_visit_dropLast {visit : Visit ℚ} (member : visit ∈ visits leaves)
    (longer : visit.trail.dropLast ≠ []) :
    ∃ before ∈ visits leaves, before.trail = visit.trail.dropLast := by
  obtain ⟨leaf, present, begins, -⟩ := mem_visits.mp member
  refine ⟨{ trail := visit.trail.dropLast, value := leaf.2 }, ?_, rfl⟩
  refine mem_visits.mpr ⟨leaf, present, mem_trails.mpr ⟨longer, ?_⟩, rfl⟩
  exact (List.dropLast_prefix _).trans (mem_trails.mp begins).2

section Unambiguous

variable (unambiguous : Unambiguous separator leaves)

include unambiguous

theorem trail_inj {first second : Visit ℚ} (member : first ∈ visits leaves)
    (member' : second ∈ visits leaves) :
    first.path separator = second.path separator ↔ first.trail = second.trail := by
  obtain ⟨leaf, present, begins, -⟩ := mem_visits.mp member
  obtain ⟨leaf', present', begins', -⟩ := mem_visits.mp member'
  exact ⟨unambiguous leaf present leaf' present' _ begins _ begins',
    congrArg (joined separator)⟩

theorem origin_of_visit {visit : Visit ℚ} (member : visit ∈ visits leaves) :
    origin separator (visits leaves) (visit.path separator) = visit.trail := by
  obtain ⟨earlier, member', same, spelled⟩ :=
    origin_of_mem (mem_paths.mpr ⟨visit, member, rfl⟩)
  rw [← same]
  exact (trail_inj unambiguous member' member).mp spelled

/-- The names on the way to a node are a path that passes through it. -/
theorem exists_visit_of_named {trail : List String} {position : Nat}
    (named : (table separator (visits leaves)).Named trail position) :
    ∃ visit ∈ visits leaves, visit.trail = trail := by
  induction named with
  | root root found =>
      obtain ⟨path, known, isAbove, -, rfl⟩ := node_of_mem_positionsBelow root found
      obtain ⟨visit, member, same, -⟩ := origin_of_mem known
      have whole := origin_eq_concat trail_ne_nil known
      rw [place_eq_none_iff.mp isAbove, List.nil_append] at whole
      exact ⟨visit, member, same.trans whole.symm⟩
  | child named held child found ih =>
      obtain ⟨before, present, rfl⟩ := ih
      rw [nodes_table, getElem?_of_named trail_ne_nil named] at held
      obtain rfl := Option.some.inj held
      obtain ⟨path, known, isAbove, -, rfl⟩ := node_of_mem_positionsBelow child found
      obtain ⟨visit, member, same, -⟩ := origin_of_mem known
      have whole := origin_eq_concat trail_ne_nil known
      obtain ⟨longer, spelled⟩ := place_eq_some_iff.mp isAbove
      rw [← same] at longer spelled whole
      obtain ⟨parent, present', same'⟩ := exists_visit_dropLast member longer
      rw [← same'] at spelled whole
      rw [(trail_inj unambiguous present' present).mp spelled] at whole
      exact ⟨visit, member, whole.symm⟩

theorem above_of_visit {visit : Visit ℚ} (member : visit ∈ visits leaves) :
    above separator (visits leaves) (visit.path separator) =
      place separator visit.trail.dropLast := by
  rw [above, origin_of_visit unambiguous member]

/-- A node is below the one whose path it continues. -/
theorem above_eq_some_iff {first second : Visit ℚ} (member : first ∈ visits leaves)
    (member' : second ∈ visits leaves) :
    above separator (visits leaves) (second.path separator) = some (first.path separator) ↔
      second.trail.dropLast = first.trail := by
  rw [above_of_visit unambiguous member', place_eq_some_iff]
  constructor
  · rintro ⟨longer, spelled⟩
    obtain ⟨before, present, same⟩ := exists_visit_dropLast member' longer
    rw [← same] at spelled ⊢
    exact (trail_inj unambiguous present member).mp spelled
  · intro same
    rw [same]
    exact ⟨trail_ne_nil first member, rfl⟩

theorem value_of_visit {visit : Visit ℚ} (member : visit ∈ visits leaves) :
    (nodeOf separator (visits leaves) (visit.path separator)).value =
      ((leaves.filter (visit.trail <+: ·.1)).map Prod.snd).sum := by
  have chosen : (visits leaves).filter (·.path separator = visit.path separator) =
      (visits leaves).filter fun other => other.trail = visit.trail :=
    List.filter_congr fun other member' =>
      decide_eq_decide.mpr (trail_inj unambiguous member' member)
  rw [value_nodeOf, chosen, sum_passing (trail_ne_nil visit member)]

theorem sum_children_of_visit {visit : Visit ℚ} (member : visit ∈ visits leaves) :
    ((table separator (visits leaves)).valuesAt
        (nodeOf separator (visits leaves) (visit.path separator)).children).sum =
      (leaves.map fun leaf =>
        if visit.trail <+: leaf.1 ∧ visit.trail ≠ leaf.1 then leaf.2 else 0).sum := by
  have chosen : (visits leaves).filter (fun other =>
      above separator (visits leaves) (other.path separator) = some (visit.path separator)) =
      (visits leaves).filter fun other => other.trail.dropLast = visit.trail :=
    List.filter_congr fun other member' =>
      decide_eq_decide.mpr (above_eq_some_iff unambiguous member member')
  rw [nodeOf, sum_valuesAt, chosen, sum_visits fun trail => trail.dropLast = visit.trail]
  simp only [decide_eq_true_eq, sum_trails_dropLast]

theorem sum_roots :
    ((table separator (visits leaves)).valuesAt (table separator (visits leaves)).roots).sum =
      (leaves.map fun leaf => if [] ≠ leaf.1 then leaf.2 else 0).sum := by
  have chosen : (visits leaves).filter (fun other =>
      above separator (visits leaves) (other.path separator) = none) =
      (visits leaves).filter fun other => other.trail.dropLast = [] :=
    List.filter_congr fun other member => by
      rw [above_of_visit unambiguous member, decide_eq_decide]
      exact place_eq_none_iff
  have roots : (table separator (visits leaves)).roots =
      positionsBelow separator (visits leaves) none := rfl
  rw [roots, sum_valuesAt, chosen, sum_visits fun trail => trail.dropLast = []]
  simp only [decide_eq_true_eq, sum_trails_dropLast, List.nil_prefix, true_and]

/-- Where no two paths are spelled alike, the values of the nodes are what they should be. -/
theorem tallies_table (closed : Closed separator (visits leaves))
    (begun : ∀ leaf ∈ leaves, leaf.1 ≠ []) : (table separator (visits leaves)).Tallies leaves := by
  have node {position : Nat} {node : Node ℚ} {trail : List String}
      (found : (table separator (visits leaves)).nodes[position]? = some node)
      (named : (table separator (visits leaves)).Named trail position) :
      ∃ visit ∈ visits leaves, visit.trail = trail ∧
        node = nodeOf separator (visits leaves) (visit.path separator) := by
    obtain ⟨visit, member, rfl⟩ := exists_visit_of_named unambiguous named
    rw [nodes_table, getElem?_of_named trail_ne_nil named] at found
    exact ⟨visit, member, rfl, (Option.some.inj found).symm⟩
  constructor
  · intro position inside
    rw [table, List.length_map] at inside
    have known := List.getElem_mem inside
    have here := (nodup_paths separator (visits leaves)).idxOf_getElem position inside
    exact here ▸ named_of_mem closed known
  · intro position _ trail found named
    obtain ⟨visit, member, rfl, rfl⟩ := node found named
    rw [value_of_visit unambiguous member, sum_children_of_visit unambiguous member, sum_map_filter,
      sum_map_filter, ← List.sum_map_add]
    refine congrArg List.sum (List.map_congr_left fun leaf _ => ?_)
    by_cases ends : leaf.1 = visit.trail
    · simp [ends]
    · simp [ends, Ne.symm ends]
  · intro position _ trail found named
    obtain ⟨visit, member, rfl, rfl⟩ := node found named
    exact value_of_visit unambiguous member
  · have summed : total (table separator (visits leaves)) =
        ((table separator (visits leaves)).valuesAt (table separator (visits leaves)).roots).sum :=
      Quantity.sum_rat _
    rw [summed, sum_roots unambiguous]
    refine congrArg List.sum (List.map_congr_left fun leaf member => ?_)
    exact if_pos (begun leaf member).symm

end Unambiguous

/-- A visit that is spelled like a path but does not follow it is counted at the node of the path,
though not along the path. -/
theorem sum_along_lt {entries : List (Visit ℚ)} (positive : ∀ visit ∈ entries, 0 < visit.value)
    {way : List String} {visit : Visit ℚ} (member : visit ∈ entries)
    (alike : visit.path separator = joined separator way) (off : visit.trail ≠ way) :
    ((entries.filter fun visit => visit.trail = way).map Visit.value).sum <
      ((entries.filter (·.path separator = joined separator way)).map Visit.value).sum := by
  rw [sum_map_filter, sum_map_filter]
  simp only [decide_eq_true_eq]
  refine List.sum_lt_sum _ _ (fun other present => ?_) ⟨visit, member, ?_⟩
  · by_cases same : other.trail = way
    · have alike : other.path separator = joined separator way := congrArg (joined separator) same
      rw [if_pos same, if_pos alike]
    · rw [if_neg same]
      split
      · exact (positive other present).le
      · exact le_rfl
  · rw [if_neg off, if_pos alike]
    exact positive visit member

/-- Where two paths are spelled alike, their node counts the rows of both: more than the rows that
pass along the one path that leads to it. -/
theorem unambiguous_of_tallies (positive : ∀ leaf ∈ leaves, 0 < leaf.2)
    (tallies : (table separator (visits leaves)).Tallies leaves) :
    Unambiguous separator leaves := by
  intro first present second present' trail begins trail' begins' alike
  have member : { trail, value := first.2 } ∈ visits leaves :=
    mem_visits.mpr ⟨first, present, begins, rfl⟩
  have member' : { trail := trail', value := second.2 } ∈ visits leaves :=
    mem_visits.mpr ⟨second, present', begins', rfl⟩
  have known : joined separator trail ∈ paths separator (visits leaves) :=
    mem_paths.mpr ⟨_, member, rfl⟩
  have inside : (paths separator (visits leaves)).idxOf (joined separator trail) <
      (table separator (visits leaves)).nodes.length := by
    rw [table, List.length_map]
    exact List.idxOf_lt_length_of_mem known
  obtain ⟨way, named⟩ := tallies.named _ inside
  have spelled := getElem?_of_named trail_ne_nil named
  rw [List.getElem?_idxOf known, Option.some.injEq] at spelled
  have counted := tallies.through (node_of_mem known) named
  rw [value_nodeOf, ← sum_passing named.ne_nil, spelled] at counted
  have least : ∀ visit ∈ visits leaves, 0 < visit.value := by
    intro visit member
    obtain ⟨leaf, present, -, same⟩ := mem_visits.mp member
    exact same ▸ positive leaf present
  -- Both paths are spelled like the way to the node, so both are that way.
  have follows {visit : Visit ℚ} (member : visit ∈ visits leaves)
      (alike : visit.path separator = joined separator way) : visit.trail = way := by
    by_contra off
    exact absurd counted (sum_along_lt least member alike off).ne'
  have here : trail = way := follows member spelled
  have there : trail' = way := follows member' (alike.symm.trans spelled)
  exact here.trans there.symm

/-- The values of the nodes are what they should be exactly when no two paths are spelled alike. -/
theorem tallies_table_iff (accepted : ∀ leaf ∈ leaves, leaf.1 ≠ [] ∧ 0 < leaf.2)
    (closed : Closed separator (visits leaves)) :
    (table separator (visits leaves)).Tallies leaves ↔ Unambiguous separator leaves :=
  ⟨unambiguous_of_tallies fun leaf member => (accepted leaf member).2,
    fun unambiguous => tallies_table unambiguous closed fun leaf member =>
      (accepted leaf member).1⟩

end Law

/-! ## Records -/

section Records

variable {rows : List Record} {config : Config}

/-- The paths and the values of the rows that are accepted. -/
def leaves {α : Type} [Quantity α] (rows : List Record) (config : Config) :
    List (List String × α) :=
  match fields? rows config with
  | none => []
  | some (pathField, valueField) =>
    rows.filterMap (leaf? (separator config) pathField valueField)

theorem ofRows_eq {α : Type} [Quantity α] (rows : List Record) (config : Config) :
    (ofRows rows config : Data α) = table (separator config) (visits (leaves rows config)) := by
  rw [ofRows, leaves]
  cases fields? rows config with
  | none => rfl
  | some fields => exact (foldl_insert _ _).1

/-- A row is accepted with the parts of its path, of which there is one at least, and with its
value, which is positive. -/
theorem of_leaf?_eq_some {separator pathField valueField : String} {row : Record}
    {leaf : List String × ℚ} (read : leaf? separator pathField valueField row = some leaf) :
    (∃ path, row.label? pathField = some path ∧ leaf.1 = segments separator path) ∧
      leaf.1 ≠ [] ∧ 0 < leaf.2 := by
  simp only [leaf?, Option.bind_eq_bind, Option.bind_eq_some_iff] at read
  obtain ⟨path, labelled, value, -, read⟩ := read
  split at read
  · cases read
  · next accepted =>
      obtain rfl := Option.some.inj read
      obtain ⟨positive, filled⟩ := not_or.mp accepted
      rw [Quantity.zero_rat] at positive
      exact ⟨⟨path, labelled, rfl⟩, by simpa using filled, not_le.mp positive⟩

theorem exists_row_of_mem_leaves {leaf : List String × ℚ} (member : leaf ∈ leaves rows config) :
    ∃ pathField valueField, ∃ row ∈ rows,
      leaf? (separator config) pathField valueField row = some leaf := by
  rw [leaves] at member
  split at member
  · cases member
  · next pathField valueField _ =>
      obtain ⟨row, present, read⟩ := List.mem_filterMap.mp member
      exact ⟨pathField, valueField, row, present, read⟩

/-- Parts hold no separator, so a separator without border keeps paths apart. -/
theorem unambiguous_of_unbordered (unbordered : Text.Unbordered (separator config).toList) :
    Unambiguous (separator config) (leaves rows config : List (List String × ℚ)) := by
  have plain {leaf : List String × ℚ} {trail : List String} (member : leaf ∈ leaves rows config)
      (begins : trail ∈ trails leaf.1) : ∀ name ∈ trail, Plain (separator config) name := by
    intro name inside
    obtain ⟨_, _, row, -, read⟩ := exists_row_of_mem_leaves member
    obtain ⟨⟨path, -, same⟩, -, -⟩ := of_leaf?_eq_some read
    have part : name ∈ segments (separator config) path :=
      same ▸ (mem_trails.mp begins).2.subset inside
    exact plain_of_mem_segments (separator_ne_empty config) part
  intro first present second present' trail begins trail' begins' alike
  exact joined_inj unbordered (separator_ne_empty config) (plain present begins)
    (plain present' begins') alike

/-- **The values of a sunburst add up where no two paths are spelled alike.**  Otherwise one node
counts the rows of both paths.  No two paths are spelled alike if the separator has no border. -/
theorem tallies_iff (rows : List Record) (config : Config) :
    ((ofRows rows config : Data ℚ).Tallies (leaves rows config) ↔
      Unambiguous (separator config) (leaves rows config : List (List String × ℚ))) ∧
    (Text.Unbordered (separator config).toList →
      (ofRows rows config : Data ℚ).Tallies (leaves rows config)) := by
  have accepted : ∀ leaf ∈ (leaves rows config : List (List String × ℚ)),
      leaf.1 ≠ [] ∧ 0 < leaf.2 := by
    intro leaf member
    obtain ⟨_, _, row, -, read⟩ := exists_row_of_mem_leaves member
    exact (of_leaf?_eq_some read).2
  have exact' := tallies_table_iff accepted (foldl_insert (separator config) _).2
  rw [ofRows_eq]
  exact ⟨exact', fun unbordered => exact'.mpr (unambiguous_of_unbordered unbordered)⟩

/-- Paths that share their beginnings, with a row at an inner node. -/
def branches : List Record :=
  [ [("path", .string "defi/dex"), ("value", .integer 3)],
    [("path", .string "defi/lending"), ("value", .integer 2)],
    [("path", .string "nft"), ("value", .integer 4)],
    [("path", .string "defi/dex/amm"), ("value", .integer 1)] ]

theorem tallies_branches : Text.Unbordered (separator {}).toList ∧
    leaves branches {} =
      [(["defi", "dex"], (3 : ℚ)), (["defi", "lending"], 2), (["nft"], 4),
        (["defi", "dex", "amm"], 1)] ∧
    (ofRows branches {} : Data ℚ).Tallies (leaves branches {}) := by
  have unbordered : Text.Unbordered (separator {}).toList := Text.unbordered_singleton '/'
  exact ⟨unbordered, by decide +kernel, (tallies_iff branches {}).2 unbordered⟩

/-- Two paths that are spelled alike. -/
def alikePaths : List Record :=
  [ [("path", .string "a: ::b"), ("value", .integer 1)],
    [("path", .string "a:::b"), ("value", .integer 2)] ]

/-- A separator that begins and ends alike. -/
def doubleColon : Config :=
  { sunburst := { pathSeparator := some "::" } }

/-- Both rows are counted at the second node, which only the first one names. -/
theorem not_tallies_alikePaths :
    leaves alikePaths doubleColon = [(["a:", "b"], (1 : ℚ)), (["a", ":b"], 2)] ∧
    (ofRows alikePaths doubleColon : Data ℚ).nodes.map
      (fun node => (node.name, node.path, node.value, node.children)) =
        [("a:", "a:", 1, [1]), ("b", "a:::b", 3, []), ("a", "a", 2, [])] ∧
    ¬ (ofRows alikePaths doubleColon : Data ℚ).Tallies (leaves alikePaths doubleColon) := by
  have rows : leaves alikePaths doubleColon = [(["a:", "b"], (1 : ℚ)), (["a", ":b"], 2)] := by
    decide +kernel
  refine ⟨rows, by decide +kernel, fun tallies => ?_⟩
  rw [ofRows_eq, rows] at tallies
  have alike := unambiguous_of_tallies (by decide +kernel) tallies (["a:", "b"], 1) (.head _)
    (["a", ":b"], 2) (.tail _ (.head _)) ["a:", "b"] (by decide) ["a", ":b"] (by decide)
    (by decide +kernel)
  exact absurd alike (by decide)

end Records

end ChartCompiler.Sunburst
