import ChartCompiler.Number.Quantity
import ChartCompiler.Proofs.Ledger

/-!
# Operations that can fail

Some operations of the compiler are not defined everywhere: an item is read at a position that a
list may not have, a position is one less than a length that may be zero, a quantity is clamped to a
range whose ends may be the wrong way round.  The definitions that run answer something in every
case.  Here the same operations answer a fault instead, so that a computation made of them comes to
an end only when none of them was used outside its domain.  A definition whose name ends in
`Checked` is the definition without that ending, made of these operations.

A loop succeeds when every turn of it does, in every state that the turns before can leave.
-/

set_option autoImplicit false

namespace ChartCompiler

/-- Why an operation fails. -/
inductive Fault where
  /-- A position beyond the end of a list. -/
  | beyond (position length : Nat)
  /-- A difference below zero. -/
  | negative (large small : Nat)
  /-- A division by zero. -/
  | divisor
  /-- A range whose low end is not below its high end, or equal to it. -/
  | bounds
  /-- A position that was never filled in. -/
  | unset
  /-- A recursion that goes deeper than foreseen. -/
  | depth
  deriving DecidableEq, Repr

/-- The outcome of a computation that can fail. -/
abbrev Checked (τ : Type) := Except Fault τ

namespace Checked

variable {β γ σ : Type}

/-! ## Operations -/

/-- The item at a position. -/
def item (items : List β) (position : Nat) : Checked β :=
  match items[position]? with
  | some found => pure found
  | none => throw (.beyond position items.length)

/-- Replaces the item at a position. -/
def put (items : List β) (position : Nat) (value : β) : Checked (List β) :=
  if position < items.length then pure (items.set position value)
  else throw (.beyond position items.length)

/-- Changes the item at a position by a change that can fail. -/
def revise (items : List β) (position : Nat) (update : β → Checked β) : Checked (List β) := do
  let present ← item items position
  put items position (← update present)

/-- Changes the item at a position. -/
def change (items : List β) (position : Nat) (update : β → β) : Checked (List β) :=
  revise items position fun present => pure (update present)

/-- Cuts a list in two at a position, which may be its end. -/
def cut (items : List β) (position : Nat) : Checked (List β × List β) :=
  if position ≤ items.length then pure (items.take position, items.drop position)
  else throw (.beyond position items.length)

/-- The difference of two counts. -/
def minus (large small : Nat) : Checked Nat :=
  if small ≤ large then pure (large - small) else throw (.negative large small)

/-- The remainder of a division. -/
def remainder (number divisor : Nat) : Checked Nat :=
  if divisor = 0 then throw .divisor else pure (number % divisor)

/-- Moves a quantity to the nearer end of a range that it lies outside of. -/
def clamp {α : Type} [Quantity α] (low high value : α) : Checked α :=
  if low ≤ high then pure (Quantity.clamp low high value) else throw .bounds

/-- A value that should have been filled in. -/
def filled : Option β → Checked β
  | some value => pure value
  | none => throw .unset

/-! ## Within their domains -/

theorem item_eq {items : List β} {position : Nat} {found : β}
    (here : items[position]? = some found) : item items position = pure found := by
  rw [item, here]

theorem item_of_lt {items : List β} {position : Nat} (inside : position < items.length) :
    item items position = pure items[position] :=
  item_eq (List.getElem?_eq_getElem inside)

/-- Inside a list it does not matter what would be read beyond its end. -/
theorem item_getD {items : List β} {position : Nat} (inside : position < items.length)
    (fallback : β) : item items position = pure (items.getD position fallback) := by
  rw [item_of_lt inside, List.getD_eq_getElem?_getD, List.getElem?_eq_getElem inside,
    Option.getD_some]

theorem put_eq {items : List β} {position : Nat} (inside : position < items.length) (value : β) :
    put items position value = pure (items.set position value) :=
  if_pos inside

theorem revise_eq {items : List β} {position : Nat} {checked : β → Checked β} {plain : β → β}
    (inside : position < items.length)
    (turn : ∀ present ∈ items, checked present = pure (plain present)) :
    revise items position checked = pure (items.modify position plain) := by
  have same : items.set position (plain items[position]) = items.modify position plain := by
    refine List.ext_getElem (by simp) fun place here here' => ?_
    by_cases there : position = place
    · subst there
      rw [List.getElem_set_self, List.getElem_modify_eq]
    · rw [List.getElem_set_ne there, List.getElem_modify_ne _ _ there]
  rw [revise, item_of_lt inside, pure_bind, turn _ (List.getElem_mem inside), pure_bind,
    put_eq inside, same]

theorem change_eq {items : List β} {position : Nat} (inside : position < items.length)
    (update : β → β) : change items position update = pure (items.modify position update) :=
  revise_eq inside fun _ _ => rfl

theorem cut_eq {items : List β} {position : Nat} (inside : position ≤ items.length) :
    cut items position = pure (items.take position, items.drop position) :=
  if_pos inside

theorem minus_eq {large small : Nat} (fits : small ≤ large) :
    minus large small = pure (large - small) :=
  if_pos fits

theorem remainder_eq {number divisor : Nat} (positive : 0 < divisor) :
    remainder number divisor = pure (number % divisor) :=
  if_neg (Nat.ne_of_gt positive)

theorem clamp_eq {α : Type} [Quantity α] {low high : α} (ordered : low ≤ high) (value : α) :
    clamp low high value = pure (Quantity.clamp low high value) :=
  if_pos ordered

/-- The last position of a list that has just grown. -/
theorem minus_length_append_singleton (items : List β) (last : β) :
    minus (items ++ [last]).length 1 = pure items.length := by
  rw [minus_eq (by simp), List.length_append, List.length_singleton, Nat.add_sub_cancel]

theorem modify_append_of_lt {items : List β} {position : Nat} (inside : position < items.length)
    (more : List β) (update : β → β) :
    (items ++ more).modify position update = items.modify position update ++ more := by
  induction items generalizing position with
  | nil => cases inside
  | cons first rest ih =>
      cases position with
      | zero => rfl
      | succ position =>
          rw [List.cons_append, List.modify_succ_cons, ih (Nat.lt_of_succ_lt_succ inside),
            List.modify_succ_cons, List.cons_append]

/-! ## Tables

A table has a value for each position below a count.
-/

section Tables

variable {count position : Nat} {value : Nat → β}

theorem replicate_eq_map_range (count : Nat) (given : β) :
    List.replicate count given = (List.range count).map fun _ => given := by
  rw [List.map_const', List.length_range]

theorem item_table (inside : position < count) :
    item ((List.range count).map value) position = pure (value position) :=
  item_eq (by simp [inside])

theorem change_table (inside : position < count) (update : β → β) :
    change ((List.range count).map value) position update =
      pure ((List.range count).map fun other =>
        if position = other then update (value other) else value other) := by
  rw [change_eq (by simpa using inside)]
  refine congrArg pure (List.ext_getElem (by simp) fun other here here' => ?_)
  simp [List.getElem_modify]

theorem put_table (inside : position < count) (given : β) :
    put ((List.range count).map value) position given =
      pure ((List.range count).map fun other =>
        if position = other then given else value other) := by
  rw [put_eq (by simpa using inside)]
  refine congrArg pure (List.ext_getElem (by simp) fun other here here' => ?_)
  simp [List.getElem_set]

/-- Filling in a table gives the values of a function when every value that is put is that of the
function, and every other position has it already. -/
theorem foldlM_put_table {result : Nat → β} {puts : List (Nat × β)}
    (given : ∀ entry ∈ puts, entry.1 < count ∧ result entry.1 = entry.2)
    (covered : ∀ position < count, value position = result position ∨
      position ∈ puts.map (·.1)) :
    puts.foldlM (fun table entry => put table entry.1 entry.2) ((List.range count).map value) =
      pure ((List.range count).map result) := by
  induction puts generalizing value with
  | nil =>
      refine congrArg pure (List.map_congr_left fun position member => ?_)
      exact (covered position (List.mem_range.mp member)).resolve_right List.not_mem_nil
  | cons entry rest ih =>
      obtain ⟨⟨inside, same⟩, later⟩ := List.forall_mem_cons.mp given
      rw [List.foldlM_cons, put_table inside, pure_bind]
      refine ih later fun position below => ?_
      by_cases here : entry.1 = position
      · exact .inl (by rw [if_pos here, ← here, same])
      · rw [if_neg here]
        refine (covered position below).imp_right fun member => ?_
        exact (List.mem_cons.mp member).resolve_left (Ne.symm here)

/-- Flags that are set are those at the positions that were given. -/
theorem foldlM_put_true {positions : List Nat}
    (inside : ∀ position ∈ positions, position < count) :
    positions.foldlM (fun flags position => put flags position true)
        (List.replicate count false) =
      pure ((List.range count).map fun position => positions.contains position) := by
  have puts : positions.foldlM (fun flags position => put flags position true)
      (List.replicate count false) =
      (positions.map fun position => (position, true)).foldlM
        (fun table entry => put table entry.1 entry.2) (List.replicate count false) := by
    rw [List.foldlM_map]
  rw [puts, replicate_eq_map_range]
  refine foldlM_put_table (fun entry member => ?_) fun position _ => ?_
  · obtain ⟨position, given, rfl⟩ := List.mem_map.mp member
    exact ⟨inside position given, List.contains_iff_mem.mpr given⟩
  · by_cases given : position ∈ positions
    · exact .inr (List.mem_map.mpr ⟨(position, true), List.mem_map_of_mem given, rfl⟩)
    · exact .inl (by simp [given])

end Tables

/-! ## Loops -/

/-- A loop that collects succeeds when every turn does. -/
theorem mapM_eq {items : List β} {checked : β → Checked γ} {plain : β → γ}
    (turn : ∀ item ∈ items, checked item = pure (plain item)) :
    items.mapM checked = pure (items.map plain) := by
  induction items with
  | nil => rfl
  | cons first rest ih =>
      rw [List.mapM_cons, turn first List.mem_cons_self, pure_bind,
        ih fun item member => turn item (List.mem_cons_of_mem _ member), pure_bind, List.map_cons]

/-- A loop that collects is compared with its results place by place. -/
theorem mapM_ext {items : List β} {checked : β → Checked γ} (results : List γ)
    (length : results.length = items.length)
    (turn : ∀ position (here : position < items.length) (here' : position < results.length),
      checked items[position] = pure results[position]) :
    items.mapM checked = pure results := by
  induction items generalizing results with
  | nil => rw [List.length_eq_zero_iff.mp length, List.mapM_nil]
  | cons first rest ih =>
      cases results with
      | nil => cases length
      | cons result results =>
          have now : checked first = pure result := turn 0 (Nat.zero_lt_succ _) (Nat.zero_lt_succ _)
          have later := ih results (Nat.succ.inj length) fun position here here' =>
            turn (position + 1) (Nat.succ_lt_succ here) (Nat.succ_lt_succ here')
          rw [List.mapM_cons, now, pure_bind, later, pure_bind]

/-- A loop with a state succeeds when every turn does in a valid state and leaves a valid one. -/
theorem foldlM_eq {items : List β} {checked : σ → β → Checked σ} {plain : σ → β → σ}
    (Valid : σ → Prop) {state : σ} (start : Valid state)
    (turn : ∀ state, ∀ item ∈ items, Valid state → checked state item = pure (plain state item))
    (keeps : ∀ state, ∀ item ∈ items, Valid state → Valid (plain state item)) :
    items.foldlM checked state = pure (items.foldl plain state) := by
  induction items generalizing state with
  | nil => rfl
  | cons first rest ih =>
      rw [List.foldlM_cons, turn state first List.mem_cons_self start, pure_bind, List.foldl_cons]
      exact ih (keeps state first List.mem_cons_self start)
        (fun state item member => turn state item (List.mem_cons_of_mem _ member))
        (fun state item member => keeps state item (List.mem_cons_of_mem _ member))

/-! ## Lists that grow -/

/-- The position of the first item that is sought; without one an item is added at the end. -/
def enroll (sought : β → Bool) (fresh : β) (items : List β) : Checked (Nat × List β) :=
  match items.findIdx? sought with
  | some position => pure (position, items)
  | none => do
    let grown := items ++ [fresh]
    let position ← minus grown.length 1
    return (position, grown)

/-- The items after one has been sought. -/
def enrolled (sought : β → Bool) (fresh : β) (items : List β) : List β :=
  if items.any sought then items else items ++ [fresh]

theorem enroll_eq (sought : β → Bool) (fresh : β) (items : List β) :
    enroll sought fresh items = pure (items.findIdx sought, enrolled sought fresh items) := by
  rw [enroll, enrolled, ← List.findIdx?_isSome]
  cases found : items.findIdx? sought with
  | some position =>
      obtain ⟨-, same⟩ := List.findIdx?_eq_some_iff_findIdx_eq.mp found
      simp [same]
  | none =>
      have absent := List.findIdx?_eq_none_iff_findIdx_eq.mp found
      simp only [minus_length_append_singleton, pure_bind, absent, Option.isSome_none]
      rfl

theorem findIdx_lt_length_enrolled (sought : β → Bool) (fresh : β) (items : List β) :
    items.findIdx sought < (enrolled sought fresh items).length := by
  rw [enrolled]
  split
  · rename_i known
    exact List.findIdx_lt_length_of_exists (by simpa using known)
  · rw [List.length_append, List.length_singleton]
    exact Nat.lt_succ_of_le List.findIdx_le_length

theorem findIdx_enrolled {sought : β → Bool} {fresh : β} (found : sought fresh = true)
    (items : List β) : (enrolled sought fresh items).findIdx sought = items.findIdx sought := by
  rw [enrolled]
  split
  · rfl
  · rename_i absent
    have none : items.findIdx sought = items.length :=
      List.findIdx_eq_length.mpr (by simpa using absent)
    rw [List.findIdx_append, none, if_neg (Nat.lt_irrefl _), List.findIdx_singleton, if_pos found,
      Nat.zero_add]

/-! ## Ledgers -/

variable {κ : Type} [DecidableEq κ]

/-- The position of a name, which is added at the end when it is new. -/
def intern (name : κ) (names : List κ) : Checked (Nat × List κ) :=
  enroll (· == name) name names

theorem intern_eq (name : κ) (names : List κ) :
    intern name names = pure (names.idxOf name, addNew name names) := by
  have known : names.any (· == name) = true ↔ name ∈ names := by simp
  simp only [intern, enroll_eq, enrolled, known]
  rfl

/-- Updates the account of a key at its position; a new account is opened at the end. -/
def post (key : κ) (fresh : β) (update : β → β) (accounts : List (κ × β)) :
    Checked (List (κ × β)) := do
  let (position, accounts) ← enroll (fun account => account.1 = key) (key, fresh) accounts
  change accounts position (·.map id update)

theorem book_eq_modify (key : κ) (fresh : β) (update : β → β) (accounts : List (κ × β)) :
    book key fresh update accounts =
      (enrolled (fun account => account.1 = key) (key, fresh) accounts).modify
        (accounts.findIdx fun account => account.1 = key) (·.map id update) := by
  induction accounts with
  | nil => rfl
  | cons account rest ih =>
      obtain ⟨name, amount⟩ := account
      by_cases same : name = key
      · simp [book, enrolled, same, List.findIdx_cons]
      · rw [enrolled] at ih
        by_cases known : rest.any fun account => account.1 = key
        · simp only [known, if_true] at ih
          simp [book, enrolled, same, List.findIdx_cons, ih, known]
        · simp only [known] at ih
          simp [book, enrolled, same, List.findIdx_cons, ih, known]

theorem post_eq (key : κ) (fresh : β) (update : β → β) (accounts : List (κ × β)) :
    post key fresh update accounts = pure (book key fresh update accounts) := by
  rw [post, enroll_eq, pure_bind, book_eq_modify]
  exact change_eq (findIdx_lt_length_enrolled _ _ _) _

end Checked

end ChartCompiler
