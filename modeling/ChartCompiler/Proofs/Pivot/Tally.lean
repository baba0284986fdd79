import ChartCompiler.Pivot.Tally
import ChartCompiler.Proofs.Number.Exact
import Mathlib.Data.List.Induction

/-!
# What a tally comes to

The value of a cell is a function of the values of its rows (`Aggregation.ofValues`), which a tally
computes without keeping them (`finish_foldl_push`).  Counting counts all rows.  Every other
aggregation passes over the rows without a value and is a gap when no row has one.

Only the last value depends on the order of the rows, as far as nothing is rounded
(`ofValues_rat_perm`).
-/

set_option autoImplicit false

namespace ChartCompiler

variable {α : Type} [Quantity α]

namespace Aggregation

/-- The first of some values, combined with the ones after it from left to right. -/
def foldFirst (combine : α → α → α) : List α → Option α
  | [] => none
  | first :: rest => some (rest.foldl combine first)

/-- An aggregation over the values of some rows, in the order of the rows. -/
def ofValues (aggregation : Aggregation) (values : List (Option α)) : Option α :=
  match aggregation with
  | sum => Quantity.totalOfPresent values
  | mean =>
    (Quantity.totalOfPresent values).map (· / Quantity.ofNat (values.filterMap id).length)
  | count => if values = [] then none else some (Quantity.ofNat values.length)
  | min => foldFirst Quantity.least (values.filterMap id)
  | max => foldFirst Quantity.greatest (values.filterMap id)
  | last => (values.filterMap id).getLast?

omit [Quantity α] in
theorem foldFirst_eq_none_iff {combine : α → α → α} {values : List α} :
    foldFirst combine values = none ↔ values = [] := by
  cases values <;> simp [foldFirst]

/-- A count is a gap when there are no rows. -/
theorem ofValues_count_eq_none_iff {values : List (Option α)} :
    count.ofValues values = none ↔ values = [] := by
  simp [ofValues]

/-- Any other aggregation is a gap when no row has a value. -/
theorem ofValues_eq_none_iff {aggregation : Aggregation} (other : aggregation ≠ count)
    {values : List (Option α)} :
    aggregation.ofValues values = none ↔ ∀ value ∈ values, value = none := by
  have absent : values.filterMap id = [] ↔ ∀ value ∈ values, value = none :=
    List.filterMap_eq_nil_iff
  cases aggregation with
  | sum => exact Quantity.totalOfPresent_eq_none_iff
  | mean => exact Option.map_eq_none_iff.trans Quantity.totalOfPresent_eq_none_iff
  | count => exact absurd rfl other
  | min => exact foldFirst_eq_none_iff.trans absent
  | max => exact foldFirst_eq_none_iff.trans absent
  | last => exact List.getLast?_eq_none_iff.trans absent

end Aggregation

/-- What a tally keeps of the values that it has been given, unless there are none. -/
def Totals.of : List α → Option (Totals α)
  | [] => none
  | first :: rest =>
    some
      { count := rest.length + 1
        sum := Quantity.total (first :: rest)
        min := rest.foldl Quantity.least first
        max := rest.foldl Quantity.greatest first
        last := (first :: rest).getLast (List.cons_ne_nil first rest) }

namespace Tally

theorem addValue_of (values : List α) (value : α) :
    some (addValue value (Totals.of values)) = Totals.of (values ++ [value]) := by
  cases values with
  | nil => rfl
  | cons first rest =>
      have total := Quantity.total_append_singleton (first :: rest) value
      rw [List.cons_append] at total
      simp [addValue, Totals.of, total]

/-- A tally knows the number of its rows and folds their values. -/
theorem foldl_push (values : List (Option α)) :
    values.foldl push empty =
      { rows := values.length, totals := Totals.of (values.filterMap id) } := by
  induction values using List.reverseRecOn with
  | nil => rfl
  | append_singleton values value ih =>
      rw [List.foldl_append, ih, List.foldl_cons, List.foldl_nil, List.filterMap_append,
        List.length_append, List.length_singleton]
      cases value with
      | none => simp [push]
      | some value =>
          rw [push, addValue_of]
          rfl

/-- **Finishing a tally aggregates the values of its rows.** -/
theorem finish_foldl_push (aggregation : Aggregation) (values : List (Option α)) :
    (values.foldl push empty).finish aggregation = aggregation.ofValues values := by
  rw [foldl_push]
  cases aggregation with
  | count => simp [finish, Aggregation.ofValues]
  | sum =>
      rw [Aggregation.ofValues, Quantity.totalOfPresent_eq]
      cases values.filterMap id <;> simp [finish, Totals.of]
  | mean =>
      rw [Aggregation.ofValues, Quantity.totalOfPresent_eq]
      cases values.filterMap id <;> simp [finish, Totals.of]
  | min =>
      rw [Aggregation.ofValues]
      cases values.filterMap id <;> rfl
  | max =>
      rw [Aggregation.ofValues]
      cases values.filterMap id <;> rfl
  | last =>
      rw [Aggregation.ofValues]
      cases values.filterMap id with
      | nil => rfl
      | cons first rest => exact (List.getLast?_eq_some_getLast _).symm

end Tally

/-! ## Exact values -/

namespace Aggregation

/-- A combination that does not depend on the order of two values does not depend on the order of
all of them. -/
theorem foldFirst_perm {α : Type} {combine : α → α → α} (comm : ∀ left right,
      combine left right = combine right left)
    (assoc : ∀ first second third,
      combine (combine first second) third = combine first (combine second third))
    {values values' : List α} (perm : values.Perm values') :
    foldFirst combine values = foldFirst combine values' := by
  have swap (first second third : α) :
      combine (combine first second) third = combine (combine first third) second := by
    rw [assoc, comm second third, ← assoc]
  induction perm with
  | nil => rfl
  | cons value perm _ =>
      exact congrArg some (perm.foldl_eq' (fun left _ right _ start => swap start left right) value)
  | swap first second rest =>
      rw [foldFirst, foldFirst, List.foldl_cons, List.foldl_cons, comm second first]
  | trans _ _ ih ih' => exact ih.trans ih'

/-- A map that respects the combination maps the result. -/
theorem map_foldFirst {α β : Type} {combine : α → α → α} {combine' : β → β → β} {change : α → β}
    (respects : ∀ left right, change (combine left right) = combine' (change left) (change right))
    (values : List α) :
    (foldFirst combine values).map change = foldFirst combine' (values.map change) := by
  cases values with
  | nil => rfl
  | cons first rest =>
      rw [List.map_cons, foldFirst, foldFirst, List.foldl_map, Option.map_some]
      exact congrArg some
        (List.foldl_hom change fun left right => (respects left right).symm).symm

/-- **Without rounding, no aggregation but the last value depends on the order of the rows.** -/
theorem ofValues_rat_perm {aggregation : Aggregation} (other : aggregation ≠ last)
    {values values' : List (Option ℚ)} (perm : values.Perm values') :
    aggregation.ofValues values = aggregation.ofValues values' := by
  have present := perm.filterMap id
  cases aggregation with
  | sum => exact Quantity.totalOfPresent_rat_perm perm
  | mean => rw [ofValues, ofValues, Quantity.totalOfPresent_rat_perm perm, present.length_eq]
  | count =>
      rw [ofValues, ofValues, perm.length_eq]
      exact if_congr ⟨fun empty => (empty ▸ perm).nil_eq.symm, fun empty => (empty ▸ perm).eq_nil⟩
        rfl rfl
  | min =>
      refine foldFirst_perm ?_ ?_ present
      · intro left right
        rw [Quantity.least_rat, Quantity.least_rat, min_comm]
      · intro first second third
        simp only [Quantity.least_rat, min_assoc]
  | max =>
      refine foldFirst_perm ?_ ?_ present
      · intro left right
        rw [Quantity.greatest_rat, Quantity.greatest_rat, max_comm]
      · intro first second third
        simp only [Quantity.greatest_rat, max_assoc]
  | last => exact absurd rfl other

end Aggregation

end ChartCompiler
