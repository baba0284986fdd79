import ChartCompiler.Proofs.Json.Members
import Mathlib.Data.List.Pairwise
import Mathlib.Data.String.Basic

/-!
# Values with their members in order

The members of an object stand in ascending order of their keys.  Inserting a member keeps that
order, so it holds of every record, and at any depth if it holds of what the members hold
(`Json.ordered_record`).

Members in order are known by what is found under each key (`Members.Ascending.ext`).
-/

set_option autoImplicit false

namespace ChartCompiler

variable {key : String} {value : Json}

namespace Members

/-- The keys ascend, so none of them is repeated. -/
def Ascending (members : Members) : Prop :=
  members.keys.Pairwise (· < ·)

variable {members : Members}

theorem Ascending.nodup (ascending : Ascending members) : members.keys.Nodup :=
  List.Pairwise.imp (fun less => ne_of_lt less) ascending

theorem mem_insert {member : String × Json} (inserted : member ∈ insert key value members) :
    member = (key, value) ∨ member ∈ members := by
  induction members with
  | nil => exact .inl (List.mem_singleton.mp inserted)
  | cons first rest ih =>
      obtain ⟨name, present⟩ := first
      rw [insert] at inserted
      split at inserted
      · exact List.mem_cons.mp inserted
      split at inserted
      · exact (List.mem_cons.mp inserted).imp_right (List.mem_cons_of_mem _)
      · rcases List.mem_cons.mp inserted with rfl | later
        · exact .inr List.mem_cons_self
        · exact (ih later).imp_right (List.mem_cons_of_mem _)

theorem ascending_insert (key : String) (value : Json) (ascending : Ascending members) :
    Ascending (insert key value members) := by
  induction members with
  | nil => exact List.pairwise_singleton _ _
  | cons first rest ih =>
      obtain ⟨name, present⟩ := first
      obtain ⟨least, ascending'⟩ := List.pairwise_cons.mp ascending
      rw [insert]
      split
      · next before =>
          refine List.pairwise_cons.mpr ⟨?_, ascending⟩
          intro other member
          rcases List.mem_cons.mp member with rfl | later
          · exact before
          · exact before.trans (least other later)
      split
      · next same =>
          subst same
          exact ascending
      · next notBefore differs =>
          have after : name < key := lt_of_le_of_ne (not_lt.mp notBefore) (Ne.symm differs)
          refine List.pairwise_cons.mpr ⟨?_, ih ascending'⟩
          intro other member
          obtain ⟨entry, inserted, rfl⟩ := List.mem_map.mp member
          rcases mem_insert inserted with rfl | later
          · exact after
          · exact least _ (List.mem_map_of_mem later)

theorem ascending_ofList (entries : List (String × Json)) : Ascending (ofList entries) := by
  induction entries using List.reverseRecOn with
  | nil => exact List.Pairwise.nil
  | append_singleton entries entry ih =>
      rw [ofList, List.foldl_append]
      exact ascending_insert entry.1 entry.2 ih

/-- What is found under the keys tells members in order apart. -/
theorem Ascending.ext {first second : Members} (ascending : Ascending first)
    (ascending' : Ascending second) (same : ∀ key, find? key first = find? key second) :
    first = second := by
  have members (member : String × Json) : member ∈ first ↔ member ∈ second := by
    rw [← find?_eq_some_iff ascending.nodup, ← find?_eq_some_iff ascending'.nodup, same]
  have perm : first.Perm second :=
    (List.perm_ext_iff_of_nodup ascending.nodup.of_map ascending'.nodup.of_map).mpr members
  apply perm.eq_of_pairwise _ (List.pairwise_map.mp ascending) (List.pairwise_map.mp ascending')
  intro member other _ _ less less'
  exact absurd less' less.asymm

end Members

namespace Json

/-- The members of every object in a value stand in order. -/
inductive Ordered : Json → Prop
  | null : Ordered .null
  | bool (value : Bool) : Ordered (.bool value)
  | integer (value : Int) : Ordered (.integer value)
  | float (value : Float) : Ordered (.float value)
  | string (text : String) : Ordered (.string text)
  | array {items : List Json} (each : ∀ item ∈ items, Ordered item) : Ordered (.array items)
  | object {members : Members} (ascending : members.Ascending)
      (each : ∀ member ∈ members, Ordered member.2) : Ordered (.object members)

attribute [simp] Ordered.null Ordered.bool Ordered.integer Ordered.float Ordered.string

@[simp] theorem ordered_ofNat (number : Nat) : Ordered (no_index (OfNat.ofNat number)) :=
  .integer number

theorem Ordered.ascending {members : Members} (ordered : Ordered (.object members)) :
    members.Ascending := by
  cases ordered with
  | object ascending each => exact ascending

theorem Ordered.of_find? {members : Members} (ordered : Ordered (.object members))
    (found : Members.find? key members = some value) : value.Ordered := by
  cases ordered with
  | object ascending each => exact each _ (Members.mem_of_find?_eq_some found)

theorem ordered_object_iff {members : Members} :
    Ordered (.object members) ↔ members.Ascending ∧
      ∀ key value, Members.find? key members = some value → value.Ordered := by
  constructor
  · exact fun ordered => ⟨ordered.ascending, fun _ _ => ordered.of_find?⟩
  · rintro ⟨ascending, each⟩
    refine .object ascending fun member here => each member.1 member.2 ?_
    exact (Members.find?_eq_some_iff ascending.nodup).mpr here

/-- A record of ordered values is ordered. -/
theorem ordered_record {entries : List (String × Json)}
    (each : ∀ entry ∈ entries, entry.2.Ordered) : (record entries).Ordered := by
  refine ordered_object_iff.mpr ⟨Members.ascending_ofList entries, fun key value found => ?_⟩
  rw [Members.find?_ofList] at found
  obtain ⟨entry, last, rfl⟩ := Option.map_eq_some_iff.mp found
  exact each entry (List.mem_reverse.mp (List.mem_of_find?_eq_some last))

end Json

end ChartCompiler
