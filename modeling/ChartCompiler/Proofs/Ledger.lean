import ChartCompiler.Ledger
import Mathlib.Algebra.BigOperators.Group.List.Basic
import Mathlib.Data.List.Induction
import Mathlib.Data.List.Nodup

/-!
# What a ledger holds

Records become the entries of a ledger where they can be read (`forall₂_filter_filterMap`).  The
keys of a ledger are the keys of its entries, each once and in the order in which they first come
up (`firstSeen_distinct`).  An account is the fold of the entries of its key, in the order of the
entries (`foldl_book`): entries of other keys neither change it nor come between its own.

Tables that keep their values beside a list of keys are described in the same way, as the image of
the keys under a function.  Changing the value at the position of a key changes the function at
that key alone (`modify_idxOf_map`).
-/

set_option autoImplicit false

namespace ChartCompiler

/-! ## The entries that are read -/

/-- Entries are read one by one when exactly those that are accepted can be read. -/
theorem forall₂_filter_filterMap {ε ρ : Type} {accepts : ε → Bool} {read : ε → Option ρ}
    {Reads : ε → ρ → Prop}
    (accepted : ∀ entry, accepts entry = true →
      ∃ given, read entry = some given ∧ Reads entry given)
    (refused : ∀ entry, ¬ accepts entry = true → read entry = none) (entries : List ε) :
    List.Forall₂ Reads (entries.filter accepts) (entries.filterMap read) := by
  induction entries with
  | nil => exact .nil
  | cons entry rest ih =>
      by_cases accept : accepts entry = true
      · obtain ⟨given, found, reads⟩ := accepted entry accept
        rw [List.filter_cons_of_pos accept, List.filterMap_cons_some found]
        exact .cons reads ih
      · rw [List.filter_cons_of_neg accept, List.filterMap_cons_none (refused entry accept)]
        exact ih

/-! ## Adding a key -/

variable {κ β : Type} [DecidableEq κ]

theorem addNew_of_mem {key : κ} {keys : List κ} (member : key ∈ keys) : addNew key keys = keys :=
  if_pos member

theorem addNew_of_not_mem {key : κ} {keys : List κ} (absent : key ∉ keys) :
    addNew key keys = keys ++ [key] :=
  if_neg absent

@[simp] theorem mem_addNew {key name : κ} {keys : List κ} :
    name ∈ addNew key keys ↔ name ∈ keys ∨ name = key := by
  by_cases member : key ∈ keys
  · rw [addNew_of_mem member]
    exact ⟨.inl, fun either => either.elim id (· ▸ member)⟩
  · rw [addNew_of_not_mem member, List.mem_append, List.mem_singleton]

theorem nodup_addNew {key : κ} {keys : List κ} (nodup : keys.Nodup) : (addNew key keys).Nodup := by
  by_cases member : key ∈ keys
  · rwa [addNew_of_mem member]
  · rw [addNew_of_not_mem member]
    exact nodup.append (List.nodup_singleton key) (by simpa using member)

/-- The keys that are there stay where they are. -/
theorem idxOf_addNew {key name : κ} {keys : List κ} (member : name ∈ keys) :
    (addNew key keys).idxOf name = keys.idxOf name := by
  by_cases present : key ∈ keys
  · rw [addNew_of_mem present]
  · rw [addNew_of_not_mem present, List.idxOf_append_of_mem member]

/-- A key that is added stands where it was, or behind all others. -/
theorem idxOf_addNew_self (key : κ) (keys : List κ) :
    (addNew key keys).idxOf key = keys.idxOf key := by
  by_cases present : key ∈ keys
  · exact idxOf_addNew present
  · rw [addNew_of_not_mem present, List.idxOf_append_of_notMem present,
      List.idxOf_eq_length present, List.idxOf_cons_self, Nat.add_zero]

/-! ## The keys in order -/

@[simp] theorem distinct_append_singleton (keys : List κ) (key : κ) :
    distinct (keys ++ [key]) = addNew key (distinct keys) := by
  simp only [distinct, List.foldl_append, List.foldl_cons, List.foldl_nil]

@[simp] theorem mem_distinct {name : κ} {keys : List κ} : name ∈ distinct keys ↔ name ∈ keys := by
  induction keys using List.reverseRecOn with
  | nil => exact Iff.rfl
  | append_singleton keys key ih => simp [ih]

theorem nodup_distinct (keys : List κ) : (distinct keys).Nodup := by
  induction keys using List.reverseRecOn with
  | nil => exact List.nodup_nil
  | append_singleton keys key ih =>
      rw [distinct_append_singleton]
      exact nodup_addNew ih

theorem distinct_perm {keys keys' : List κ} (perm : keys.Perm keys') :
    (distinct keys).Perm (distinct keys') := by
  refine (List.perm_ext_iff_of_nodup (nodup_distinct keys) (nodup_distinct keys')).mpr fun key => ?_
  rw [mem_distinct, mem_distinct, perm.mem_iff]

/-- Keys that are the given ones, each once and in the order in which they first come up. -/
structure FirstSeen (keys given : List κ) : Prop where
  /-- The keys are those that are given. -/
  mem_iff : ∀ key, key ∈ keys ↔ key ∈ given
  /-- A key stands before the keys that come up after it. -/
  order : keys.Pairwise fun earlier later => given.idxOf earlier < given.idxOf later

theorem FirstSeen.nodup {keys given : List κ} (seen : FirstSeen keys given) : keys.Nodup :=
  seen.order.imp fun before same => Nat.ne_of_lt before (congrArg given.idxOf same)

theorem firstSeen_distinct (keys : List κ) : FirstSeen (distinct keys) keys := by
  refine ⟨fun _ => mem_distinct, ?_⟩
  induction keys using List.reverseRecOn with
  | nil => exact .nil
  | append_singleton keys key ih =>
      -- A key that is appended leaves the first places of the others.
      have kept : (distinct keys).Pairwise fun earlier later =>
          (keys ++ [key]).idxOf earlier < (keys ++ [key]).idxOf later := by
        refine ih.imp_of_mem fun {earlier later} known known' before => ?_
        rwa [List.idxOf_append_of_mem (mem_distinct.mp known),
          List.idxOf_append_of_mem (mem_distinct.mp known')]
      rw [distinct_append_singleton]
      by_cases member : key ∈ distinct keys
      · rwa [addNew_of_mem member]
      · rw [addNew_of_not_mem member, List.pairwise_append]
        refine ⟨kept, List.pairwise_singleton _ _, fun earlier known last same => ?_⟩
        obtain rfl := List.mem_singleton.mp same
        rw [List.idxOf_append_of_mem (mem_distinct.mp known),
          List.idxOf_append_of_notMem (mt mem_distinct.mpr member)]
        exact Nat.lt_add_right _ (List.idxOf_lt_length_of_mem (mem_distinct.mp known))

/-- Keys that are among the given ones, each once and in the order in which they first come up. -/
structure SeenAmong (keys given : List κ) : Prop where
  /-- The keys are given. -/
  mem : ∀ key ∈ keys, key ∈ given
  /-- A key stands before the keys that come up after it. -/
  order : keys.Pairwise fun earlier later => given.idxOf earlier < given.idxOf later

theorem SeenAmong.nodup {keys given : List κ} (seen : SeenAmong keys given) : keys.Nodup :=
  seen.order.imp fun before same => Nat.ne_of_lt before (congrArg given.idxOf same)

/-- Leaving keys out does not disturb the order of the others. -/
theorem FirstSeen.sublist {keys kept given : List κ} (seen : FirstSeen keys given)
    (part : kept.Sublist keys) : SeenAmong kept given where
  mem key member := (seen.mem_iff key).mp (part.mem member)
  order := seen.order.sublist part

/-- Keys can be renamed before or after they are collected. -/
theorem distinct_map {ν : Type} [DecidableEq ν] {rename : κ → ν}
    (injective : Function.Injective rename) (keys : List κ) :
    distinct (keys.map rename) = (distinct keys).map rename := by
  induction keys using List.reverseRecOn with
  | nil => rfl
  | append_singleton keys key ih =>
      rw [List.map_append, List.map_singleton, distinct_append_singleton, ih,
        distinct_append_singleton]
      by_cases member : key ∈ distinct keys
      · rw [addNew_of_mem member, addNew_of_mem (List.mem_map_of_mem member)]
      · rw [addNew_of_not_mem member, List.map_append, List.map_singleton,
          addNew_of_not_mem ((List.mem_map_of_injective injective).not.mpr member)]

/-! ## Values beside keys -/

/-- A key is at the position of another one exactly when they are the same. -/
theorem idxOf_eq_iff {keys : List κ} (nodup : keys.Nodup) {position : Nat} {key other : κ}
    (found : keys[position]? = some key) (known : other ∈ keys) :
    keys.idxOf other = position ↔ other = key := by
  constructor
  · rintro rfl
    exact Option.some.inj ((List.getElem?_idxOf known).symm.trans found)
  · rintro rfl
    obtain ⟨within, same⟩ := List.getElem?_eq_some_iff.mp found
    rw [← same]
    exact nodup.idxOf_getElem position within

/-- Changing the value at the position of a key changes the value of that key alone. -/
theorem modify_idxOf_map {key : κ} {keys : List κ} (nodup : keys.Nodup) (value : κ → β)
    (change : β → β) :
    (keys.map value).modify (keys.idxOf key) change =
      keys.map fun name => if name = key then change (value name) else value name := by
  induction keys with
  | nil => rfl
  | cons first rest ih =>
      obtain ⟨apart, nodup⟩ := List.nodup_cons.mp nodup
      by_cases here : first = key
      · subst here
        have others : rest.map (fun name => if name = first then change (value name)
            else value name) = rest.map value :=
          List.map_congr_left fun name member =>
            if_neg fun same : name = first => apart (same ▸ member)
        simp [others]
      · simp [List.idxOf_cons_ne _ here, here, ih nodup]

/-- Booking an entry changes the account of its key alone. -/
theorem book_map {key : κ} {keys : List κ} {fresh : β} {account : κ → β} (nodup : keys.Nodup)
    (absent : key ∉ keys → account key = fresh) (update : β → β) :
    book key fresh update (keys.map fun name => (name, account name)) =
      (addNew key keys).map fun name =>
        (name, if name = key then update (account name) else account name) := by
  induction keys with
  | nil => simp [book, addNew, absent]
  | cons first rest ih =>
      obtain ⟨apart, nodup⟩ := List.nodup_cons.mp nodup
      by_cases here : first = key
      · subst here
        have others : rest.map (fun name => (name, if name = first then update (account name)
            else account name)) = rest.map fun name => (name, account name) :=
          List.map_congr_left fun name member => by
            rw [if_neg fun same : name = first => apart (same ▸ member)]
        simp [book, addNew_of_mem, others]
      · have later : addNew key (first :: rest) = first :: addNew key rest := by
          by_cases member : key ∈ rest
          · rw [addNew_of_mem member, addNew_of_mem (List.mem_cons_of_mem _ member)]
          · rw [addNew_of_not_mem member, addNew_of_not_mem (by simp [member, Ne.symm here])]
            rfl
        have booked := ih nodup fun outside => absent (by simp [outside, Ne.symm here])
        simp [book, here, later, booked]

/-- A ledger has one account for each key, in the order in which the keys first come up.  An account
is whatever is opened by the first entry of its key, updated by every entry of its key, and left
alone by the others. -/
theorem foldl_book_account {ε : Type} (key : ε → κ) (fresh : ε → β) (update : ε → β → β)
    (account : List ε → κ → β)
    (opens : ∀ entries entry, key entry ∉ entries.map key →
      account (entries ++ [entry]) (key entry) = update entry (fresh entry))
    (continues : ∀ entries entry, key entry ∈ entries.map key →
      account (entries ++ [entry]) (key entry) = update entry (account entries (key entry)))
    (others : ∀ entries entry name, name ≠ key entry →
      account (entries ++ [entry]) name = account entries name) (entries : List ε) :
    entries.foldl (fun accounts entry => book (key entry) (fresh entry) (update entry) accounts)
        [] =
      (distinct (entries.map key)).map fun name => (name, account entries name) := by
  induction entries using List.reverseRecOn with
  | nil => rfl
  | append_singleton entries entry ih =>
      have nodup := nodup_distinct (entries.map key)
      rw [List.foldl_append, ih, List.foldl_cons, List.foldl_nil, List.map_append,
        List.map_singleton, distinct_append_singleton]
      by_cases known : key entry ∈ distinct (entries.map key)
      · rw [book_map nodup fun outside => absurd known outside]
        refine List.map_congr_left fun name _ => ?_
        by_cases same : name = key entry
        · rw [if_pos same, same, continues entries entry (mem_distinct.mp known)]
        · rw [if_neg same, others entries entry name same]
      · -- Before it is opened, the account may as well be fresh.
        let opened (name : κ) : β := if name = key entry then fresh entry else account entries name
        have same : ((distinct (entries.map key)).map fun name => (name, account entries name)) =
            (distinct (entries.map key)).map fun name => (name, opened name) :=
          List.map_congr_left fun name member =>
            congrArg (name, ·) (if_neg fun same : name = key entry => known (same ▸ member)).symm
        have fresh : opened (key entry) = fresh entry := if_pos rfl
        rw [same, book_map nodup (fun _ => fresh) (update entry)]
        refine List.map_congr_left fun name _ => ?_
        by_cases same : name = key entry
        · rw [if_pos same, same, opens entries entry (mt mem_distinct.mpr known)]
          rw [fresh]
        · rw [if_neg same, others entries entry name same]
          exact congrArg (name, ·) (if_neg same)

theorem filter_key_eq_nil {ε : Type} {key : ε → κ} {entries : List ε} {name : κ}
    (absent : name ∉ entries.map key) : (entries.filter fun entry => key entry = name) = [] := by
  refine List.filter_eq_nil_iff.mpr fun entry member same => ?_
  exact absent (of_decide_eq_true same ▸ List.mem_map_of_mem member)

/-- **A ledger has one account for each key, in the order in which the keys first come up, and an
account is the fold of the entries of its key.** -/
theorem foldl_book {ε : Type} (key : ε → κ) (fresh : β) (update : ε → β → β)
    (entries : List ε) :
    entries.foldl (fun accounts entry => book (key entry) fresh (update entry) accounts) [] =
      (distinct (entries.map key)).map fun name =>
        (name, (entries.filter fun entry => key entry = name).foldl
          (fun account entry => update entry account) fresh) := by
  apply foldl_book_account key (fun _ => fresh) update fun entries name =>
    (entries.filter fun entry => key entry = name).foldl (fun account entry => update entry account)
      fresh
  · intro entries entry absent
    simp [filter_key_eq_nil absent]
  · intro entries entry _
    simp
  · intro entries entry name other
    simp [other.symm]

/-! ## Sums by key -/

section Sums

variable {M : Type} [AddCommMonoid M]

/-- A value that is given to one key is counted once. -/
theorem sum_map_ite_key {keys : List κ} (nodup : keys.Nodup) (key : κ) (value : M) :
    (keys.map fun name => if key = name then value else 0).sum =
      if key ∈ keys then value else 0 := by
  induction keys with
  | nil => rfl
  | cons first rest ih =>
      obtain ⟨apart, nodup⟩ := List.nodup_cons.mp nodup
      rw [List.map_cons, List.sum_cons, ih nodup]
      by_cases same : key = first
      · subst same
        simp [apart]
      · simp [same]

/-- The sums of the groups of some keys add up to the sum over all entries of these keys. -/
theorem sum_map_sum_filter {ε : Type} (key : ε → κ) (weight : ε → M) (chosen : κ → Bool)
    {keys : List κ} (nodup : keys.Nodup) (entries : List ε)
    (covered : ∀ entry ∈ entries, key entry ∈ keys) :
    ((keys.filter chosen).map fun name =>
        ((entries.filter fun entry => key entry = name).map weight).sum).sum =
      ((entries.filter fun entry => chosen (key entry)).map weight).sum := by
  induction entries with
  | nil => simp
  | cons entry rest ih =>
      have later := ih fun other member => covered other (List.mem_cons_of_mem _ member)
      have first := sum_map_ite_key (nodup.filter chosen) (key entry) (weight entry)
      have split (name : κ) :
          (((entry :: rest).filter fun other => key other = name).map weight).sum =
            (if key entry = name then weight entry else 0) +
              ((rest.filter fun other => key other = name).map weight).sum := by
        by_cases same : key entry = name <;> simp [same]
      simp only [split, List.sum_map_add, first, later]
      have known := covered entry List.mem_cons_self
      by_cases taken : chosen (key entry) <;> simp [taken, known]

/-- A sum over entries, key by key. -/
theorem sum_map_count {keys : List κ} (nodup : keys.Nodup) (weight : κ → M) (entries : List κ)
    (covered : ∀ entry ∈ entries, entry ∈ keys) :
    (entries.map weight).sum = (keys.map fun key => entries.count key • weight key).sum := by
  have grouped := sum_map_sum_filter id weight (fun _ => true) nodup entries covered
  rw [List.filter_true, List.filter_true] at grouped
  rw [← grouped]
  refine congrArg List.sum (List.map_congr_left fun key _ => ?_)
  have same : entries.filter (fun entry => id entry = key) =
      List.replicate (entries.count key) key := List.filter_eq _
  rw [same, List.map_replicate, List.sum_replicate]

end Sums

end ChartCompiler
