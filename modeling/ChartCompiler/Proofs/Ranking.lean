import ChartCompiler.Proofs.Ledger
import ChartCompiler.Proofs.Number.Ordered
import ChartCompiler.Proofs.Sorting
import Mathlib.Algebra.BigOperators.Group.Finset.Basic

/-!
# Rankings

Entries are grouped by a key, the amounts of each group are added up, and the keys with a positive
sum are put in order, the greatest sum first (`Ranks`).  Keys with the same sum stay in the order in
which they first come up, because the keys are collected in that order and sorted by a stable sort
(`ranks_ranking`).

Whatever is made of a key can be ranked in its place (`ranked_map`).  Over the rational numbers the
ranked keys account for all that is positive, in whatever order they stand
(`Ranks.sum_amountOf`).
-/

set_option autoImplicit false

namespace ChartCompiler

variable {ε κ α : Type} [DecidableEq κ]

section Amounts

variable [Quantity α] (key : ε → κ) (amount : ε → α) (entries : List ε)

/-- The sum of the amounts of the entries of a key, in the order of the entries. -/
def amountOf (name : κ) : α :=
  Quantity.total ((entries.filter (key · = name)).map amount)

/-- The keys with a positive sum, in the order in which they first come up. -/
def positiveKeys : List κ :=
  (distinct (entries.map key)).filter fun name =>
    decide (Quantity.zero < amountOf key amount entries name)

/-- The keys with a positive sum, the greatest sum first. -/
def ranking : List κ :=
  (positiveKeys key amount entries).mergeSort fun left right =>
    Quantity.totalLE (amountOf key amount entries right) (amountOf key amount entries left)

/-- A list ranks the keys of some entries. -/
structure Ranks (ranking : List κ) : Prop where
  /-- The keys are those with a positive sum. -/
  mem_iff : ∀ name, name ∈ ranking ↔
    name ∈ entries.map key ∧ Quantity.zero < amountOf key amount entries name
  /-- No key is ranked twice. -/
  nodup : ranking.Nodup
  /-- A greater sum stands before a smaller one; of two keys with the same sum, the one that comes
  up first stands first. -/
  order : ranking.Pairwise fun first second =>
    amountOf key amount entries second < amountOf key amount entries first ∨
      (amountOf key amount entries second = amountOf key amount entries first ∧
        (entries.map key).idxOf first < (entries.map key).idxOf second)

end Amounts

section Order

variable [Quantity α] {key : ε → κ} {amount : ε → α} {entries : List ε}

theorem amountOf_of_not_mem {name : κ} (absent : name ∉ entries.map key) :
    amountOf key amount entries name = Quantity.zero := by
  rw [amountOf, filter_key_eq_nil absent]
  rfl

theorem amountOf_append_self (entry : ε) :
    amountOf key amount (entries ++ [entry]) (key entry) =
      amountOf key amount entries (key entry) + amount entry := by
  simp [amountOf]

theorem amountOf_append_of_ne {name : κ} (entry : ε) (other : name ≠ key entry) :
    amountOf key amount (entries ++ [entry]) name = amountOf key amount entries name := by
  simp [amountOf, other.symm]

theorem mem_positiveKeys {name : κ} :
    name ∈ positiveKeys key amount entries ↔
      name ∈ entries.map key ∧ Quantity.zero < amountOf key amount entries name := by
  rw [positiveKeys, List.mem_filter, mem_distinct, decide_eq_true_iff]

theorem ranking_perm : (ranking key amount entries).Perm (positiveKeys key amount entries) :=
  List.mergeSort_perm _ _

theorem nodup_ranking : (ranking key amount entries).Nodup :=
  ranking_perm.nodup_iff.mpr ((nodup_distinct _).filter _)

/-- What is made of keys is filtered as the keys are. -/
theorem positive_map {β : Type} {value : β → α} {make : κ → β}
    (same : ∀ name, value (make name) = amountOf key amount entries name) :
    (((distinct (entries.map key)).map make).filter fun item =>
        decide (Quantity.zero < value item)) = (positiveKeys key amount entries).map make := by
  rw [List.filter_map, positiveKeys]
  refine congrArg (List.map make) (List.filter_congr fun name _ => ?_)
  rw [Function.comp_apply, same]

/-- What is made of keys is ranked as the keys are. -/
theorem ranked_map {β : Type} {value : β → α} {make : κ → β}
    (same : ∀ name, value (make name) = amountOf key amount entries name) :
    (((distinct (entries.map key)).map make).filter fun item =>
        decide (Quantity.zero < value item)).mergeSort
          (fun left right => Quantity.totalLE (value right) (value left)) =
      (ranking key amount entries).map make := by
  rw [positive_map same, ranking]
  refine (List.map_mergeSort ?_).symm
  intro left _ right _
  rw [same, same]

/-- Keys in the order in which they first come up are ranked by a stable sort. -/
theorem ranks_ranking [Quantity.Ordered α] (key : ε → κ) (amount : ε → α) (entries : List ε) :
    Ranks key amount entries (ranking key amount entries) where
  mem_iff name := ranking_perm.mem_iff.trans mem_positiveKeys
  nodup := nodup_ranking
  order := by
    have part : (positiveKeys key amount entries).Sublist (distinct (entries.map key)) :=
      List.filter_sublist
    have seen := ((firstSeen_distinct (entries.map key)).sublist part).order
    rw [ranking]
    refine (pairwise_mergeSort_stable ?trans ?total seen).imp_of_mem ?_
    case trans =>
      intro first second third before after
      exact Quantity.Ordered.totalLE_trans _ _ _ after before
    case total =>
      intro first second
      exact Quantity.Ordered.totalLE_total _ _
    rintro first second here there ⟨before, tie⟩
    -- The total order sets the two zeros apart and ranks what is no number; on positive sums it is
    -- the usual order.
    have positive := (mem_positiveKeys.mp (List.mem_mergeSort.mp here)).2
    have positive' := (mem_positiveKeys.mp (List.mem_mergeSort.mp there)).2
    refine (Quantity.Ordered.lt_or_eq_of_totalLE _ _ positive' positive before).imp_right ?_
    intro same
    exact ⟨same, tie (same ▸ Quantity.totalLE_self _)⟩

/-- No key has a greater sum than one that stands before it. -/
theorem Ranks.amountOf_le [Quantity.Ordered α] {ranking kept rest : List κ}
    (ranks : Ranks key amount entries ranking) (parts : ranking = kept ++ rest) {first second : κ}
    (here : first ∈ kept) (there : second ∈ rest) :
    amountOf key amount entries second ≤ amountOf key amount entries first := by
  have ordered := ranks.order
  rw [parts, List.pairwise_append] at ordered
  rcases ordered.2.2 first here second there with less | ⟨same, -⟩
  · exact Quantity.Ordered.le_of_lt _ _ less
  · have member : first ∈ ranking := parts ▸ List.mem_append_left rest here
    rw [same]
    exact Quantity.Ordered.le_self_of_lt _ _ ((ranks.mem_iff first).mp member).2

end Order

/-! ## Exact sums -/

section Exact

variable (key : ε → κ) (amount : ε → ℚ) (entries : List ε)

/-- The sum of all sums that are positive. -/
def positiveTotal : ℚ :=
  ∑ name ∈ (entries.map key).toFinset with 0 < amountOf key amount entries name,
    amountOf key amount entries name

variable {key amount entries}

/-- The keys of a ranking account for all that is positive. -/
theorem Ranks.sum_amountOf {ranking : List κ} (ranks : Ranks key amount entries ranking) :
    (ranking.map (amountOf key amount entries)).sum = positiveTotal key amount entries := by
  rw [positiveTotal, ← List.sum_toFinset _ ranks.nodup]
  refine Finset.sum_congr (Finset.ext fun name => ?_) fun _ _ => rfl
  rw [List.mem_toFinset, ranks.mem_iff, Finset.mem_filter, List.mem_toFinset, Quantity.zero_rat]

end Exact

end ChartCompiler
