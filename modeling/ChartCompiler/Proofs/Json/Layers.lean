import ChartCompiler.Proofs.Json.Ordered
import ChartCompiler.Proofs.Json.Overlay

/-!
# What an overlay shows at a path

A path of keys leads through the objects of a value.  Where an overlay ends along a path the value
below shows, and where it has something to say it is the overlay that shows (`Json.Layered`).  These
laws settle what is found at every path.

Laying a value over itself, laying nothing over an object and laying one value twice over another
change nothing (`Json.overlay_layered`).
-/

set_option autoImplicit false

namespace ChartCompiler

/-! ## Members that are laid over members -/

namespace Members

variable {members uppers : Members}

theorem ascending_overlayMembers (ascending : Ascending members) :
    Ascending (Json.overlayMembers members uppers) := by
  induction uppers generalizing members with
  | nil => exact ascending
  | cons member rest ih =>
      rw [Json.overlayMembers]
      exact ih (ascending_insert _ _ ascending)

/-- A member that is laid over another one is an overlay of its own, and a new one is as given. -/
theorem find?_overlayMembers (distinct : uppers.keys.Nodup) (key : String) :
    find? key (Json.overlayMembers members uppers) =
      match find? key uppers with
      | none => find? key members
      | some value =>
        some (match find? key members with
          | none => value
          | some present => Json.overlay present value) := by
  induction uppers generalizing members with
  | nil => rfl
  | cons member rest ih =>
      obtain ⟨name, value⟩ := member
      obtain ⟨apart, distinct⟩ := List.nodup_cons.mp distinct
      rw [Json.overlayMembers, ih distinct, find?_insert, find?]
      by_cases here : name = key
      · subst here
        rw [find?_eq_none_of_not_mem apart, if_pos rfl, if_pos rfl]
        cases find? name members <;> rfl
      · rw [if_neg here, if_neg here]

end Members

namespace Json

/-! ## Paths -/

/-- Whether a path leads to an object. -/
def ObjectAt (path : List String) (value : Json) : Prop :=
  ∃ members, value.at? path = some (.object members)

section Paths

variable {key : String} {value : Json} {members : Members} {rest : List String}

theorem objectAt_nil : value.ObjectAt [] ↔ value.IsObject :=
  exists_congr fun _ => Option.some_inj

theorem at?_cons (found : Members.find? key members = some value) :
    (object members).at? (key :: rest) = value.at? rest := by
  rw [at?, member?, members?, Option.bind_some, found, Option.bind_some]

theorem at?_cons_of_none (missing : Members.find? key members = none) :
    (object members).at? (key :: rest) = none := by
  rw [at?, member?, members?, Option.bind_some, missing, Option.bind_none]

theorem objectAt_cons (found : Members.find? key members = some value) :
    (object members).ObjectAt (key :: rest) ↔ value.ObjectAt rest := by
  rw [ObjectAt, ObjectAt, at?_cons found]

/-- A path that leads somewhere leads through an object. -/
theorem exists_of_at?_cons {target : Json} (reached : value.at? (key :: rest) = some target) :
    ∃ members next, value = .object members ∧ Members.find? key members = some next ∧
      next.at? rest = some target := by
  obtain ⟨next, found, onward⟩ := Option.bind_eq_some_iff.mp reached
  cases value with
  | object members => exact ⟨members, next, rfl, found, onward⟩
  | _ => cases found

end Paths

/-- What an overlay shows at the paths of two values. -/
structure Layered (base upper laid : Json) : Prop where
  /-- Where both are objects up to the last key and the upper one lacks that key, what the lower one
  has shows, be it nothing. -/
  kept : ∀ path key, (∀ start, start <+: path → base.ObjectAt start ∧ upper.ObjectAt start) →
    upper.at? (path ++ [key]) = none → laid.at? (path ++ [key]) = base.at? (path ++ [key])
  /-- What is no object in the upper one shows. -/
  replaced : ∀ path value, upper.at? path = some value → ¬ value.IsObject →
    laid.at? path = some value
  /-- An object of the upper one shows as it is where the lower one has none. -/
  added : ∀ path members, upper.at? path = some (.object members) → ¬ base.ObjectAt path →
    laid.at? path = some (.object members)

section Overlay

variable {base upper : Json}

theorem overlay_of_base_not_isObject (plain : ¬ base.IsObject) : overlay base upper = upper := by
  cases upper with
  | object uppers =>
      cases base with
      | object members => exact absurd ⟨members, rfl⟩ plain
      | _ => rfl
  | _ => rfl

/-! ## Paths through an overlay -/

section Members

variable {members uppers : Members} {key : String} {rest : List String} {value present : Json}

theorem at?_overlay_below (distinct : uppers.keys.Nodup)
    (missing : Members.find? key uppers = none) :
    (overlay (.object members) (.object uppers)).at? (key :: rest) =
      (object members).at? (key :: rest) := by
  have shown : Members.find? key (overlayMembers members uppers) = Members.find? key members := by
    rw [Members.find?_overlayMembers distinct, missing]
  rw [overlay]
  cases found : Members.find? key members with
  | none => rw [at?_cons_of_none (shown.trans found), at?_cons_of_none found]
  | some value => rw [at?_cons (shown.trans found), at?_cons found]

theorem at?_overlay_above (distinct : uppers.keys.Nodup)
    (found : Members.find? key uppers = some value)
    (missing : Members.find? key members = none) :
    (overlay (.object members) (.object uppers)).at? (key :: rest) = value.at? rest := by
  rw [overlay]
  apply at?_cons
  rw [Members.find?_overlayMembers distinct, found, missing]

theorem at?_overlay_both (distinct : uppers.keys.Nodup)
    (found : Members.find? key uppers = some value)
    (found' : Members.find? key members = some present) :
    (overlay (.object members) (.object uppers)).at? (key :: rest) =
      (overlay present value).at? rest := by
  rw [overlay]
  apply at?_cons
  rw [Members.find?_overlayMembers distinct, found, found']

end Members

/-- Where the upper value ends, the lower one shows. -/
theorem at?_overlay_kept (ordered : upper.Ordered) (path : List String) (key : String)
    (through : ∀ start, start <+: path → base.ObjectAt start ∧ upper.ObjectAt start)
    (missing : upper.at? (path ++ [key]) = none) :
    (overlay base upper).at? (path ++ [key]) = base.at? (path ++ [key]) := by
  induction path generalizing base upper with
  | nil =>
      obtain ⟨below, above⟩ := through [] List.nil_prefix
      obtain ⟨members, rfl⟩ := objectAt_nil.mp below
      obtain ⟨uppers, rfl⟩ := objectAt_nil.mp above
      apply at?_overlay_below ordered.ascending.nodup
      cases found : Members.find? key uppers with
      | none => rfl
      | some value => cases (at?_cons found).symm.trans missing
  | cons first rest ih =>
      obtain ⟨⟨_, below⟩, ⟨_, above⟩⟩ := through [first] (List.prefix_append [first] rest)
      obtain ⟨members, present, rfl, found, -⟩ := exists_of_at?_cons below
      obtain ⟨uppers, value, rfl, found', -⟩ := exists_of_at?_cons above
      rw [List.cons_append, at?_cons found'] at missing
      rw [List.cons_append, at?_overlay_both ordered.ascending.nodup found' found, at?_cons found]
      refine ih (ordered.of_find? found') (fun start initial => ?_) missing
      rw [← objectAt_cons found, ← objectAt_cons found']
      exact through (first :: start) (List.cons_prefix_cons.mpr ⟨rfl, initial⟩)

/-- What the upper value has shows, unless two objects meet there. -/
theorem at?_overlay_upper (ordered : upper.Ordered) (path : List String) {value : Json}
    (reached : upper.at? path = some value) (clash : ¬ (value.IsObject ∧ base.ObjectAt path)) :
    (overlay base upper).at? path = some value := by
  induction path generalizing base upper with
  | nil =>
      obtain rfl := Option.some.inj reached
      rw [objectAt_nil] at clash
      by_cases isObject : upper.IsObject
      · exact congrArg some (overlay_of_base_not_isObject fun below => clash ⟨isObject, below⟩)
      · exact congrArg some (overlay_of_not_isObject isObject)
  | cons key rest ih =>
      -- The path goes on below a member of the upper value; only where the lower value has that
      -- member as well do two values meet again.
      obtain ⟨uppers, next, rfl, found, onward⟩ := exists_of_at?_cons reached
      have distinct := ordered.ascending.nodup
      cases base with
      | object members =>
          cases found' : Members.find? key members with
          | none => exact (at?_overlay_above distinct found found').trans onward
          | some present =>
              rw [at?_overlay_both distinct found found']
              rw [objectAt_cons found'] at clash
              exact ih (ordered.of_find? found) onward clash
      | _ => exact reached

theorem layered_overlay (ordered : upper.Ordered) : Layered base upper (overlay base upper) where
  kept := at?_overlay_kept ordered
  replaced path _ reached plain := at?_overlay_upper ordered path reached fun clash => plain clash.1
  added path _ reached absent := at?_overlay_upper ordered path reached fun clash => absent clash.2

/-! ## Overlays that change nothing -/

/-- Members stay as they are when each of them does. -/
theorem overlayMembers_eq_self {members uppers : Members} (ascending : members.Ascending)
    (distinct : uppers.keys.Nodup)
    (same : ∀ key value, Members.find? key uppers = some value →
      ∃ present, Members.find? key members = some present ∧ overlay present value = present) :
    overlayMembers members uppers = members := by
  refine (Members.ascending_overlayMembers ascending).ext ascending fun key => ?_
  rw [Members.find?_overlayMembers distinct]
  cases found : Members.find? key uppers with
  | none => rfl
  | some value =>
      obtain ⟨present, found', unchanged⟩ := same key value found
      simp only [found', unchanged]

/-- A value that is laid over itself stays as it is. -/
theorem overlay_self {value : Json} (ordered : value.Ordered) : overlay value value = value := by
  induction ordered with
  | object ascending each ih =>
      rw [overlay]
      refine congrArg object (overlayMembers_eq_self ascending ascending.nodup ?_)
      intro key value found
      exact ⟨value, found, ih _ (Members.mem_of_find?_eq_some found)⟩
  | _ => rfl

theorem overlay_nothing (isObject : base.IsObject) : overlay base (.object []) = base := by
  obtain ⟨members, rfl⟩ := isObject
  rw [overlay, overlayMembers]

/-- What has been laid over a value is there already. -/
theorem overlay_overlay (ordered : base.Ordered) (ordered' : upper.Ordered) :
    overlay (overlay base upper) upper = overlay base upper := by
  -- Whatever the upper value holds is laid over something below or stands there on its own, so the
  -- induction follows the upper value for any value below.
  induction ordered' generalizing base with
  | @object uppers ascending each ih =>
      cases ordered with
      | @object members ascending' each' =>
          simp only [overlay]
          refine congrArg object (overlayMembers_eq_self
            (Members.ascending_overlayMembers ascending') ascending.nodup ?_)
          intro key value found
          rw [Members.find?_overlayMembers ascending.nodup, found]
          refine ⟨_, rfl, ?_⟩
          have member := Members.mem_of_find?_eq_some found
          cases found' : Members.find? key members with
          | none => exact overlay_self (each _ member)
          | some present => exact ih _ member (each' _ (Members.mem_of_find?_eq_some found'))
      | _ => exact overlay_self (.object ascending each)
  | _ => rfl

/-- An overlay of values in order is in order. -/
theorem ordered_overlay (ordered : base.Ordered) (ordered' : upper.Ordered) :
    (overlay base upper).Ordered := by
  induction ordered' generalizing base with
  | @object uppers ascending each ih =>
      cases ordered with
      | @object members ascending' each' =>
          rw [overlay]
          refine ordered_object_iff.mpr ⟨Members.ascending_overlayMembers ascending', ?_⟩
          intro key value found
          rw [Members.find?_overlayMembers ascending.nodup] at found
          cases above : Members.find? key uppers with
          | none =>
              rw [above] at found
              exact each' _ (Members.mem_of_find?_eq_some found)
          | some laid =>
              rw [above] at found
              obtain rfl := Option.some.inj found
              have member := Members.mem_of_find?_eq_some above
              cases below : Members.find? key members with
              | none => exact each _ member
              | some present => exact ih _ member (each' _ (Members.mem_of_find?_eq_some below))
      | _ => exact .object ascending each
  | array each => exact .array each
  | _ => constructor

/-- **An overlay shows where it says something, and what is below it shows elsewhere.**  It changes
nothing where it says what is there: over itself, when it is empty, and the second time. -/
theorem overlay_layered (ordered : base.Ordered) (ordered' : upper.Ordered) :
    (overlay base upper).Ordered ∧ Layered base upper (overlay base upper) ∧
      overlay base base = base ∧ (base.IsObject → overlay base (.object []) = base) ∧
      overlay (overlay base upper) upper = overlay base upper :=
  ⟨ordered_overlay ordered ordered', layered_overlay ordered', overlay_self ordered,
    overlay_nothing, overlay_overlay ordered ordered'⟩

end Overlay

/-- An option with a grid, a title and two numbers. -/
def plainOption : Json :=
  record [("grid", record [("left", 10), ("right", 10)]), ("title", "Flow"),
    ("series", array [1, 2])]

/-- A wider margin, a title that is an object, and another number. -/
def wideMargin : Json :=
  record [("grid", record [("left", 40)]), ("title", record [("show", false)]),
    ("series", array [3])]

theorem overlay_layered_of_margin :
    plainOption.Ordered ∧ wideMargin.Ordered ∧
      Layered plainOption wideMargin
        (record [("grid", record [("left", 40), ("right", 10)]),
          ("title", record [("show", false)]), ("series", array [3])]) ∧
      overlay plainOption plainOption = plainOption ∧
      overlay plainOption (.object []) = plainOption ∧
      overlay (overlay plainOption wideMargin) wideMargin = overlay plainOption wideMargin := by
  have ordered : plainOption.Ordered := by
    simp [plainOption, ordered_record, Ordered.array]
  have ordered' : wideMargin.Ordered := by
    simp [wideMargin, ordered_record, Ordered.array]
  obtain ⟨-, layered, itself, nothing, twice⟩ := overlay_layered ordered ordered'
  exact ⟨ordered, ordered', layered, itself, nothing ⟨_, rfl⟩, twice⟩

end Json

end ChartCompiler
