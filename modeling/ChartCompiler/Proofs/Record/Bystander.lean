import ChartCompiler.Proofs.Json.Members
import ChartCompiler.Record.Field
import Mathlib.Data.List.Basic

/-!
# Records that carry none of the fields looked for

Records need not share one shape, so a list of records may hold some that have nothing to do with a
chart.  Such a bystander changes neither which fields are found nor, since it has no cell in any of
them, what is read from the rows.
-/

set_option autoImplicit false

namespace ChartCompiler

/-! ## Inserting what is passed over -/

section Insertion

variable {ε ρ σ : Type} {extra : ε} (before after : List ε)

theorem findSome?_insert {read : ε → Option ρ} (nothing : read extra = none) :
    (before ++ extra :: after).findSome? read = (before ++ after).findSome? read := by
  rw [List.findSome?_append, List.findSome?_append, List.findSome?_cons, nothing]

theorem findSome?_congr {items : List ε} {read other : ε → Option ρ}
    (same : ∀ item ∈ items, read item = other item) :
    items.findSome? read = items.findSome? other := by
  rw [← List.head?_filterMap, ← List.head?_filterMap, List.filterMap_congr same]

theorem mapM_congr {items : List ε} {read other : ε → Option ρ}
    (same : ∀ item ∈ items, read item = other item) : items.mapM read = items.mapM other := by
  induction items with
  | nil => rfl
  | cons item items ih =>
      rw [List.forall_mem_cons] at same
      rw [List.mapM_cons, List.mapM_cons, same.1, ih same.2]

theorem filterMap_insert {read : ε → Option ρ} (nothing : read extra = none) :
    (before ++ extra :: after).filterMap read = (before ++ after).filterMap read := by
  rw [List.filterMap_append, List.filterMap_append, List.filterMap_cons_none nothing]

theorem foldl_insert {step : σ → ε → σ} (nothing : ∀ state, step state extra = state)
    (start : σ) :
    (before ++ extra :: after).foldl step start = (before ++ after).foldl step start := by
  rw [List.foldl_append, List.foldl_append, List.foldl_cons, nothing]

end Insertion

/-! ## Names -/

theorem Text.sameName_self (name : String) : Text.sameName name name = true :=
  beq_self_eq_true _

/-- A record spells a name like the name, up to the case of letters. -/
theorem Record.sameName_of_spelling? {record : Record} {name field : String}
    (spelled : record.spelling? name = some field) : Text.sameName field name = true := by
  rw [spelling?] at spelled
  split at spelled
  · cases spelled
    exact Text.sameName_self name
  · exact List.find?_some (p := fun key => Text.sameName key name) spelled

theorem exists_name_of_findField {rows : List Record} {configured : Option String}
    {conventional : List String} {field : String}
    (found : findField rows configured conventional = some field) :
    ∃ name ∈ (Candidates.mk configured conventional).names, Text.sameName field name = true := by
  obtain ⟨name, listed, carried⟩ := List.exists_of_findSome?_eq_some found
  obtain ⟨record, -, spelled⟩ := List.exists_of_findSome?_eq_some carried
  exact ⟨name, listed, Record.sameName_of_spelling? spelled⟩

/-! ## Bystanders -/

/-- A record has no field that is looked for, and no cell that reads as a number. -/
structure Bystander (wanted : List Candidates) (record : Record) : Prop where
  /-- No key is one of the names, whatever the case of its letters. -/
  unnamed : ∀ candidates ∈ wanted, ∀ name ∈ candidates.names, ∀ key ∈ Members.keys record,
    Text.sameName key name = false
  /-- No cell reads as a number. -/
  unnumbered : ∀ entry ∈ record, Cell.number entry.2 = none

namespace Bystander

variable {wanted : List Candidates} {extra : Record} {configured : Option String}
  {conventional : List String}

theorem spelling?_eq_none (bystander : Bystander wanted extra) {candidates : Candidates}
    (listed : candidates ∈ wanted) {name : String} (named : name ∈ candidates.names) :
    extra.spelling? name = none := by
  have foreign := bystander.unnamed candidates listed name named
  rw [Record.spelling?]
  split
  · next cell found =>
      have clash := foreign name (Members.mem_keys_of_find?_eq_some found)
      exact absurd (Text.sameName_self name) (by simp [clash])
  · exact List.find?_eq_none.mpr fun key member => by simp [foreign key member]

/-- A bystander does not change which fields are found. -/
theorem findField_insert (bystander : Bystander wanted extra) (before after : List Record) :
    ∀ candidates ∈ wanted,
      findField (before ++ extra :: after) candidates.configured candidates.conventional =
        findField (before ++ after) candidates.configured candidates.conventional := by
  intro candidates listed
  refine findSome?_congr fun name named => ?_
  exact findSome?_insert before after (bystander.spelling?_eq_none listed named)

/-- A bystander has no cell in a field that is found. -/
theorem cell?_eq_none (bystander : Bystander wanted extra)
    (listed : ⟨configured, conventional⟩ ∈ wanted) {rows : List Record} {field : String}
    (found : findField rows configured conventional = some field) : extra.cell? field = none := by
  obtain ⟨name, named, same⟩ := exists_name_of_findField found
  cases cell : extra.cell? field with
  | none => rfl
  | some value =>
      have foreign := bystander.unnamed _ listed name named field
        (Members.mem_keys_of_find?_eq_some cell)
      rw [same] at foreign
      cases foreign

theorem label?_eq_none (bystander : Bystander wanted extra)
    (listed : ⟨configured, conventional⟩ ∈ wanted) {rows : List Record} {field : String}
    (found : findField rows configured conventional = some field) :
    extra.label? field = none := by
  rw [Record.label?, bystander.cell?_eq_none listed found, Option.bind_none]

end Bystander

end ChartCompiler
