import ChartCompiler.Json.Overlay
import ChartCompiler.Proofs.Json.Members

/-!
# What an overlay keeps

An object that is laid over an object keeps all of its keys: members are replaced or added, and none
is taken away.  Anything else replaces what it is laid over.
-/

set_option autoImplicit false

namespace ChartCompiler

namespace Members

/-- Inserting a member takes no key away. -/
theorem keys_subset_insert (key : String) (value : Json) (members : Members) :
    members.keys ⊆ (insert key value members).keys := by
  induction members with
  | nil => exact List.nil_subset _
  | cons member rest ih =>
      obtain ⟨name, present⟩ := member
      rw [insert]
      split
      · exact List.subset_cons_self _ _
      split
      · next same =>
          subst same
          exact List.Subset.refl _
      · exact List.cons_subset_cons name ih

end Members

namespace Json

theorem keys_subset_overlayMembers (members uppers : Members) :
    members.keys ⊆ Members.keys (overlayMembers members uppers) := by
  induction uppers generalizing members with
  | nil => exact List.Subset.refl _
  | cons member rest ih =>
      obtain ⟨key, value⟩ := member
      rw [overlayMembers]
      exact List.Subset.trans (Members.keys_subset_insert _ _ members) (ih _)

/-- Whether a value is an object. -/
def IsObject (value : Json) : Prop :=
  ∃ members, value = .object members

/-- Whether a value is an object with all keys of another object. -/
def KeepsKeys (before after : Json) : Prop :=
  ∃ members kept : Members,
    before = .object members ∧ after = .object kept ∧ members.keys ⊆ kept.keys

theorem KeepsKeys.refl {value : Json} (isObject : value.IsObject) : value.KeepsKeys value := by
  obtain ⟨members, rfl⟩ := isObject
  exact ⟨members, members, rfl, rfl, List.Subset.refl _⟩

/-- **An overlay keeps the keys of an object exactly when it is an object itself.** -/
theorem keepsKeys_overlay_iff {base upper : Json} (isObject : base.IsObject) :
    base.KeepsKeys (overlay base upper) ↔ upper.IsObject := by
  obtain ⟨members, rfl⟩ := isObject
  constructor
  · rintro ⟨_, kept, -, laid, -⟩
    cases upper with
    | object uppers => exact ⟨uppers, rfl⟩
    | _ => cases laid
  · rintro ⟨uppers, rfl⟩
    exact ⟨members, _, rfl, rfl, keys_subset_overlayMembers members uppers⟩

theorem overlay_of_not_isObject {base upper : Json} (plain : ¬ upper.IsObject) :
    overlay base upper = upper := by
  cases upper with
  | object uppers => exact absurd ⟨uppers, rfl⟩ plain
  | _ => rfl

end Json

end ChartCompiler
