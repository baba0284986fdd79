import ChartCompiler.Json.Reader
import ChartCompiler.Proofs.Json.Ordered

/-!
# Reading puts members in order

Members may come in any order in a text, and a key may come up twice.  What is read has its members
in order all the same, at every depth (`Json.ordered_of_read?`), so all that is said of values in
order holds of the records, the configuration and the overrides of a chart.

The readers call one another with less fuel each time, so what each of them reads is settled by one
induction on the fuel (`Json.readsOrdered`).
-/

set_option autoImplicit false

namespace ChartCompiler.Json

variable {value : Json} {text rest : List Char}

theorem ordered_of_numberOf (found : numberOf text = some value) : value.Ordered := by
  obtain ⟨numeral, -, made⟩ := Option.bind_eq_some_iff.mp found
  dsimp only at made
  generalize (if numeral.negative then -(numeral.coefficient : Int) else numeral.coefficient) =
    number at made
  split at made
  · cases made
    exact .integer _
  · split at made
    · cases made
      exact .float _
    · cases made

theorem eq_of_readWord {word : String} {given : Json}
    (found : readWord word given text = some (value, rest)) : value = given := by
  rw [readWord] at found
  split at found
  · exact (congrArg Prod.fst (Option.some.inj found)).symm
  · cases found

/-- Whatever the readers read with some fuel is in order. -/
structure ReadsOrdered (fuel : Nat) : Prop where
  value : ∀ levels text value rest, readValue fuel levels text = some (value, rest) → value.Ordered
  array : ∀ levels text value rest, readArray fuel levels text = some (value, rest) → value.Ordered
  object : ∀ levels text value rest, readObject fuel levels text = some (value, rest) →
    value.Ordered
  items : ∀ levels text items rest, readItems fuel levels text = some (items, rest) →
    ∀ item ∈ items, item.Ordered
  members : ∀ levels text entries rest, readMembers fuel levels text = some (entries, rest) →
    ∀ entry ∈ entries, entry.2.Ordered

theorem readsOrdered_zero : ReadsOrdered 0 := by
  constructor <;> intro levels text value rest found <;>
    simp [readValue, readArray, readObject, readItems, readMembers] at found

theorem ReadsOrdered.readValue_succ {fuel : Nat} (reads : ReadsOrdered fuel) {levels : Nat}
    (found : readValue (fuel + 1) levels text = some (value, rest)) : value.Ordered := by
  rw [readValue] at found
  split at found
  · cases found
  · obtain ⟨⟨read, rest⟩, -, made⟩ := Option.bind_eq_some_iff.mp found
    cases made
    exact .string _
  · split at found
    · split at found
      · cases found
      · split at found
        · exact reads.array _ _ _ _ found
        · exact reads.object _ _ _ _ found
    · split at found
      · exact eq_of_readWord found ▸ .bool true
      split at found
      · exact eq_of_readWord found ▸ .bool false
      split at found
      · exact eq_of_readWord found ▸ .null
      · obtain ⟨number, read, same⟩ := Option.map_eq_some_iff.mp found
        cases same
        exact ordered_of_numberOf read

theorem ReadsOrdered.readArray_succ {fuel : Nat} (reads : ReadsOrdered fuel) {levels : Nat}
    (found : readArray (fuel + 1) levels text = some (value, rest)) : value.Ordered := by
  rw [readArray] at found
  split at found
  · cases found
    exact .array (List.forall_mem_nil _)
  · obtain ⟨⟨items, rest⟩, read, made⟩ := Option.bind_eq_some_iff.mp found
    cases made
    exact .array (reads.items _ _ _ _ read)

theorem ReadsOrdered.readObject_succ {fuel : Nat} (reads : ReadsOrdered fuel) {levels : Nat}
    (found : readObject (fuel + 1) levels text = some (value, rest)) : value.Ordered := by
  rw [readObject] at found
  split at found
  · split at found
    · cases found
      exact ordered_record (List.forall_mem_nil _)
    · obtain ⟨⟨entries, rest⟩, read, made⟩ := Option.bind_eq_some_iff.mp found
      cases made
      exact ordered_record (reads.members _ _ _ _ read)
  · cases found

theorem ReadsOrdered.readItems_succ {fuel : Nat} (reads : ReadsOrdered fuel) {levels : Nat}
    {items : List Json} (found : readItems (fuel + 1) levels text = some (items, rest)) :
    ∀ item ∈ items, item.Ordered := by
  rw [readItems] at found
  obtain ⟨⟨item, rest⟩, read, more⟩ := Option.bind_eq_some_iff.mp found
  have first := reads.value _ _ _ _ read
  dsimp only at more
  split at more
  · obtain ⟨⟨others, rest⟩, read', made⟩ := Option.bind_eq_some_iff.mp more
    cases made
    exact List.forall_mem_cons.mpr ⟨first, reads.items _ _ _ _ read'⟩
  · cases more
    exact List.forall_mem_singleton.mpr first
  · cases more

theorem ReadsOrdered.readMembers_succ {fuel : Nat} (reads : ReadsOrdered fuel) {levels : Nat}
    {entries : List (String × Json)}
    (found : readMembers (fuel + 1) levels text = some (entries, rest)) :
    ∀ entry ∈ entries, entry.2.Ordered := by
  rw [readMembers] at found
  split at found
  · obtain ⟨⟨key, rest⟩, -, more⟩ := Option.bind_eq_some_iff.mp found
    dsimp only at more
    split at more
    · obtain ⟨⟨value, rest⟩, read, more⟩ := Option.bind_eq_some_iff.mp more
      have first := reads.value _ _ _ _ read
      dsimp only at more
      split at more
      · obtain ⟨⟨others, rest⟩, read', made⟩ := Option.bind_eq_some_iff.mp more
        cases made
        exact List.forall_mem_cons.mpr ⟨first, reads.members _ _ _ _ read'⟩
      · split at more
        · cases more
          exact List.forall_mem_singleton.mpr first
        · cases more
      · cases more
    · cases more
  · cases found

theorem readsOrdered (fuel : Nat) : ReadsOrdered fuel := by
  induction fuel with
  | zero => exact readsOrdered_zero
  | succ fuel reads =>
      exact ⟨fun _ _ _ _ => reads.readValue_succ, fun _ _ _ _ => reads.readArray_succ,
        fun _ _ _ _ => reads.readObject_succ, fun _ _ _ _ => reads.readItems_succ,
        fun _ _ _ _ => reads.readMembers_succ⟩

/-- **Whatever is read from a text is in order.** -/
theorem ordered_of_read? {text : String} (found : read? text = some value) : value.Ordered := by
  rw [read?] at found
  split at found
  · next read =>
      split at found
      · cases found
        exact (readsOrdered _).value _ _ _ _ read
      · cases found
  · cases found

end ChartCompiler.Json
