import ChartCompiler.Json.Value
import Mathlib.Data.List.Induction
import Mathlib.Data.List.Nodup

/-!
# What stands under a key

What is found under a key of an object is a member of it, and where the keys are distinct it is the
only one with that key (`find?_eq_some_iff`).

Options are written as lists of entries, sometimes with a member put in afterwards.  What is found
under a key is the last entry with that key, whatever the order of the members.
-/

set_option autoImplicit false

namespace ChartCompiler

variable {key name : String} {value : Json}

namespace Members

theorem mem_of_find?_eq_some {members : Members} (found : find? key members = some value) :
    (key, value) ∈ members := by
  induction members with
  | nil => cases found
  | cons member rest ih =>
      obtain ⟨name, present⟩ := member
      rw [find?] at found
      split at found
      · next same =>
          cases found
          exact same ▸ List.mem_cons_self
      · exact List.mem_cons_of_mem _ (ih found)

theorem mem_keys_of_find?_eq_some {members : Members} (found : find? key members = some value) :
    key ∈ members.keys :=
  List.mem_map_of_mem (mem_of_find?_eq_some found)

theorem find?_eq_none_of_not_mem {members : Members} (absent : key ∉ members.keys) :
    find? key members = none := by
  cases found : find? key members with
  | none => rfl
  | some value => exact absurd (mem_keys_of_find?_eq_some found) absent

/-- Where keys are distinct, what is found under a key is the member with that key. -/
theorem find?_eq_some_iff {members : Members} (distinct : members.keys.Nodup) :
    find? key members = some value ↔ (key, value) ∈ members := by
  constructor
  · exact mem_of_find?_eq_some
  · intro member
    induction members with
    | nil => cases member
    | cons first rest ih =>
        obtain ⟨name, present⟩ := first
        obtain ⟨apart, distinct⟩ := List.nodup_cons.mp distinct
        rw [find?]
        rcases List.mem_cons.mp member with same | later
        · cases same
          exact if_pos rfl
        · have differs : name ≠ key := by
            rintro rfl
            exact apart (List.mem_map.mpr ⟨_, later, rfl⟩)
          rw [if_neg differs]
          exact ih distinct later

theorem find?_append (first second : Members) :
    find? key (first ++ second) = (find? key first).or (find? key second) := by
  induction first with
  | nil => rfl
  | cons member rest ih =>
      obtain ⟨name, present⟩ := member
      rw [List.cons_append, find?, find?, ih]
      split <;> rfl

theorem nodup_keys_filter {members : Members} (distinct : members.keys.Nodup)
    (keep : String × Json → Bool) : (keys (members.filter keep)).Nodup :=
  distinct.sublist (List.filter_sublist.map _)

theorem find?_filter {members : Members} (distinct : members.keys.Nodup)
    (keep : String × Json → Bool) :
    find? key (members.filter keep) =
      (find? key members).filter fun value => keep (key, value) := by
  refine Option.ext fun value => ?_
  rw [find?_eq_some_iff (nodup_keys_filter distinct keep), List.mem_filter,
    Option.filter_eq_some_iff, find?_eq_some_iff distinct]

theorem find?_insert (members : Members) :
    find? key (insert name value members) =
      if name = key then some value else find? key members := by
  induction members with
  | nil => rfl
  | cons member rest ih =>
      obtain ⟨present, kept⟩ := member
      rw [insert]
      split
      · rfl
      split
      · next same =>
          subst same
          simp only [find?]
          split <;> rfl
      · next before differs =>
          simp only [find?, ih]
          by_cases here : present = key
          · rw [if_pos here, if_pos here, if_neg (by rintro rfl; exact differs here.symm)]
          · rw [if_neg here, if_neg here]

theorem find?_ofList (entries : List (String × Json)) :
    find? key (ofList entries) = (entries.reverse.find? (·.1 = key)).map (·.2) := by
  induction entries using List.reverseRecOn with
  | nil => rfl
  | append_singleton entries entry ih =>
      have last : ofList (entries ++ [entry]) = insert entry.1 entry.2 (ofList entries) := by
        rw [ofList, List.foldl_append]
        rfl
      rw [last, find?_insert, List.reverse_append, List.reverse_singleton, List.singleton_append,
        List.find?_cons, ih]
      by_cases here : entry.1 = key
      · simp [here]
      · simp [here]

end Members

namespace Json

/-! ## Members, items and texts -/

/-- What stands under a key of an object. -/
def member? (key : String) (value : Json) : Option Json :=
  value.members?.bind (Members.find? key)

/-- The items of the array under a key. -/
def itemsAt (key : String) (value : Json) : List Json :=
  ((value.member? key).bind items?).getD []

/-- The text under a key. -/
def textAt? (key : String) (value : Json) : Option String :=
  (value.member? key).bind string?

@[simp] theorem member?_null : null.member? key = none := rfl

theorem member?_record (entries : List (String × Json)) :
    (record entries).member? key = (entries.reverse.find? (·.1 = key)).map (·.2) :=
  Members.find?_ofList entries

@[simp] theorem member?_record_nil : (record []).member? key = none := rfl

@[simp] theorem member?_record_cons (rest : List (String × Json)) :
    (record ((name, value) :: rest)).member? key =
      ((record rest).member? key).or (if name = key then some value else none) := by
  rw [member?_record, member?_record, List.reverse_cons, List.find?_append, List.find?_singleton]
  by_cases here : name = key
  · simp only [here, decide_true, if_true]
    cases rest.reverse.find? (·.1 = key) <;> rfl
  · simp only [here, decide_false, if_false, Bool.false_eq_true]
    cases rest.reverse.find? (·.1 = key) <;> rfl

/-- What is found in a list of entries that goes on with others. -/
@[simp] theorem member?_record_append (first second : List (String × Json)) :
    (record (first ++ second)).member? key =
      ((record second).member? key).or ((record first).member? key) := by
  rw [member?_record, member?_record, member?_record, List.reverse_append, List.find?_append]
  cases second.reverse.find? (·.1 = key) <;> rfl

/-- What stands at the end of a path of keys. -/
def at? : List String → Json → Option Json
  | [], value => some value
  | key :: rest, value => (value.member? key).bind (at? rest)

theorem member?_set_of_ne {base : Json} (differs : name ≠ key) :
    (base.set name value).member? key = base.member? key := by
  cases base with
  | object members => exact (Members.find?_insert members).trans (if_neg differs)
  | _ => rfl

theorem member?_setIf_of_ne {base : Json} {condition : Bool} (differs : name ≠ key) :
    (base.setIf condition name value).member? key = base.member? key := by
  rw [setIf]
  split
  · exact member?_set_of_ne differs
  · rfl

end Json

end ChartCompiler
