import ChartCompiler.Chart.Sunburst
import ChartCompiler.Proofs.Text.Parts
import Mathlib.Data.List.Induction

/-!
# Paths as texts

A node is looked up by the text of its path, so two paths that are spelled alike are one node.  The
parts of a path hold no separator (`plain_of_mem_segments`), and still two lists of such parts can
be joined to one text: with the separator `::`, both `a:`, `b` and `a`, `:b` spell `a:::b`.  That
takes a separator which begins and ends alike; for every other one, the parts can be told from
their text (`joined_inj`).
-/

set_option autoImplicit false

namespace ChartCompiler.Sunburst

/-! ## The text of a path -/

/-- The text of a path, its parts joined with the separator. -/
def joined (separator : String) (trail : List String) : String :=
  trail.foldl (Data.pathBelow separator) ""

theorem joined_append_singleton (separator : String) (trail : List String) (name : String) :
    joined separator (trail ++ [name]) = Data.pathBelow separator (joined separator trail) name :=
  List.foldl_concat _ _ _ _

/-- A name that can be told from its neighbours: not blank, and without the separator. -/
def Plain (separator name : String) : Prop :=
  name ≠ "" ∧ ¬ separator.toList <:+: name.toList

/-- The characters of the parts after the first one, each behind a separator. -/
def following (separator : String) (rest : List String) : List Char :=
  rest.flatMap fun part => separator.toList ++ part.toList

variable {separator : String}

theorem joined_cons_ne_empty {name : String} (named : name ≠ "") (rest : List String) :
    joined separator (name :: rest) ≠ "" := by
  induction rest using List.reverseRecOn with
  | nil => exact named
  | append_singleton rest last ih =>
      rw [← List.cons_append, joined_append_singleton, Data.pathBelow, if_neg ih]
      simp [ih]

theorem toList_joined_cons {name : String} (named : name ≠ "") (rest : List String) :
    (joined separator (name :: rest)).toList = name.toList ++ following separator rest := by
  induction rest using List.reverseRecOn with
  | nil => simp [joined, Data.pathBelow, following]
  | append_singleton rest last ih =>
      rw [← List.cons_append, joined_append_singleton, Data.pathBelow,
        if_neg (joined_cons_ne_empty named rest), String.toList_append, String.toList_append, ih]
      simp [following]

theorem following_starts (rest : List String) :
    following separator rest = [] ∨ separator.toList <+: following separator rest := by
  cases rest with
  | nil => exact .inl rfl
  | cons part parts =>
      right
      rw [following, List.flatMap_cons, List.append_assoc]
      exact List.prefix_append _ _

section Injective

variable (unbordered : Text.Unbordered separator.toList)

include unbordered

/-- A part ends where the next separator starts, so two paths are compared part by part. -/
theorem part_inj {name name' : String} {rest rest' : List String} (plain : Plain separator name)
    (plain' : Plain separator name')
    (same : name.toList ++ following separator rest = name'.toList ++ following separator rest') :
    name = name' ∧ following separator rest = following separator rest' := by
  obtain ⟨first, later⟩ := Text.cut_inj_of_unbordered unbordered plain.2 plain'.2
    (following_starts rest) (following_starts rest') same
  exact ⟨String.toList_inj.mp first, later⟩

theorem following_inj (nonempty : separator ≠ "") {rest rest' : List String}
    (plain : ∀ part ∈ rest, Plain separator part) (plain' : ∀ part ∈ rest', Plain separator part)
    (same : following separator rest = following separator rest') : rest = rest' := by
  have apart (part : String) (parts : List String) : following separator (part :: parts) ≠ [] := by
    simp [following, nonempty]
  induction rest generalizing rest' with
  | nil =>
      cases rest' with
      | nil => rfl
      | cons part' parts' => exact absurd same.symm (apart part' parts')
  | cons part parts ih =>
      cases rest' with
      | nil => exact absurd same (apart part parts)
      | cons part' parts' =>
          simp only [following, List.flatMap_cons, List.append_assoc,
            List.append_cancel_left_eq] at same
          obtain ⟨rfl, later⟩ := part_inj unbordered (plain part List.mem_cons_self)
            (plain' part' List.mem_cons_self) same
          rw [ih (fun other member => plain other (List.mem_cons_of_mem _ member))
            (fun other member => plain' other (List.mem_cons_of_mem _ member)) later]

/-- **The parts of a path can be told from its text when the separator has no border.** -/
theorem joined_inj (nonempty : separator ≠ "") {first second : List String}
    (plain : ∀ name ∈ first, Plain separator name) (plain' : ∀ name ∈ second, Plain separator name)
    (same : joined separator first = joined separator second) : first = second := by
  cases first with
  | nil =>
      cases second with
      | nil => rfl
      | cons name' rest' =>
          exact absurd same.symm (joined_cons_ne_empty (plain' name' List.mem_cons_self).1 _)
  | cons name rest =>
      have here := plain name List.mem_cons_self
      cases second with
      | nil => exact absurd same (joined_cons_ne_empty here.1 _)
      | cons name' rest' =>
          have there := plain' name' List.mem_cons_self
          have spelled := congrArg String.toList same
          rw [toList_joined_cons here.1, toList_joined_cons there.1] at spelled
          obtain ⟨rfl, later⟩ := part_inj unbordered here there spelled
          rw [following_inj unbordered nonempty
            (fun other member => plain other (List.mem_cons_of_mem _ member))
            (fun other member => plain' other (List.mem_cons_of_mem _ member)) later]

end Injective

/-! ## The parts of a row -/

theorem separator_ne_empty (config : Config) : Sunburst.separator config ≠ "" := by
  rw [Sunburst.separator]
  cases chosen : config.sunburst.pathSeparator.filter (· ≠ "") with
  | none => decide
  | some separator => simpa using (Option.filter_eq_some_iff.mp chosen).2

theorem plain_of_mem_segments (nonempty : separator ≠ "") {path name : String}
    (member : name ∈ segments separator path) : Plain separator name := by
  obtain ⟨part, trimmed, kept⟩ := List.mem_filterMap.mp member
  obtain ⟨whole, split, rfl⟩ := List.mem_map.mp trimmed
  split at kept
  · cases kept
  · next filled =>
      obtain rfl := Option.some.inj kept
      refine ⟨fun blank => filled ?_, ?_⟩
      · rw [List.isEmpty_iff]
        simpa using blank
      · rw [String.toList_ofList]
        intro inside
        refine Text.not_infix_of_mem_split ?_ split (inside.trans (Text.trimBlanks_infix whole))
        exact fun none => nonempty (String.toList_eq_nil_iff.mp none)

end ChartCompiler.Sunburst
