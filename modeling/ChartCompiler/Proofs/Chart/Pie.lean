import ChartCompiler.Chart.Pie
import ChartCompiler.Proofs.Ranking

/-!
# The slices of a pie

A pie ranks the names with a positive sum.  The best ones keep slices of their own, and the others
share one (`Data.Divides`), so that the slices together hold what the names hold, whatever the limit
is (`ofRows_divides`).

The shared slice goes by a name that records can carry as well.  The slices have different names
unless a name that keeps its own slice is that one (`ofRows_names_nodup_iff`).
-/

set_option autoImplicit false

namespace ChartCompiler.Pie

variable {α : Type} [Quantity α]

/-! ## The entries that rows make -/

/-- A row is read when it has a name. -/
def accepts (nameField : String) (row : Record) : Bool :=
  (row.label? nameField).isSome

/-- What a row makes: its name, and its value or zero. -/
structure Reads (nameField valueField : String) (row : Record) (entry : String × α) : Prop where
  name : row.label? nameField = some entry.1
  value : entry.2 = ((row.number? valueField).map Quantity.ofFloat).getD Quantity.zero

/-- The entry of a row, if it has a name. -/
def namedValue? (nameField valueField : String) (row : Record) : Option (String × α) :=
  (row.label? nameField).map fun name =>
    (name, ((row.number? valueField).map Quantity.ofFloat).getD Quantity.zero)

/-- The entries of some records.  There are none when a field is missing. -/
def Enters (rows : List Record) (config : Config) (entries : List (String × α)) : Prop :=
  match fields? rows config with
  | none => entries = []
  | some (nameField, valueField) =>
    List.Forall₂ (Reads nameField valueField) (rows.filter (accepts nameField)) entries

section Entries

variable (nameField valueField : String) (rows : List Record)

theorem reads_entries :
    List.Forall₂ (Reads (α := α) nameField valueField) (rows.filter (accepts nameField))
      (rows.filterMap (namedValue? nameField valueField)) := by
  refine forall₂_filter_filterMap ?_ ?_ rows
  · intro row accepted
    obtain ⟨name, named⟩ := Option.isSome_iff_exists.mp accepted
    exact ⟨_, by rw [namedValue?, named, Option.map_some], named, rfl⟩
  · intro row refused
    have unnamed : row.label? nameField = none := by
      simpa only [accepts, Option.not_isSome_iff_eq_none] using refused
    rw [namedValue?, unnamed, Option.map_none]

/-- The slice of a name. -/
def sliceOf (entries : List (String × α)) (name : String) : Slice α :=
  { name, value := amountOf Prod.fst Prod.snd entries name }

theorem sums_eq :
    sums (α := α) nameField valueField rows =
      (distinct ((rows.filterMap (namedValue? (α := α) nameField valueField)).map Prod.fst)).map
        (sliceOf (rows.filterMap (namedValue? nameField valueField))) := by
  have accounts := foldl_book Prod.fst (Quantity.zero : α) (fun entry sum => sum + entry.2)
    (rows.filterMap (namedValue? nameField valueField))
  rw [List.foldl_filterMap] at accounts
  unfold sums
  -- The fold passes over a row without a name, as if the rows had been read before.
  refine (congrArg (List.map _)
    ((congrArg (fun step => rows.foldl step []) ?_).trans accounts)).trans ?_
  · funext accounts row
    rw [namedValue?]
    cases row.label? nameField <;> rfl
  rw [List.map_map]
  refine List.map_congr_left fun name _ => ?_
  rw [Function.comp_apply, sliceOf, amountOf, Quantity.total, List.foldl_map]

theorem ranked_sums :
    ranked (sums (α := α) nameField valueField rows) =
      (ranking Prod.fst Prod.snd (rows.filterMap (namedValue? (α := α) nameField valueField))).map
        (sliceOf (rows.filterMap (namedValue? nameField valueField))) := by
  rw [ranked, sums_eq]
  exact ranked_map fun _ => rfl

end Entries

/-! ## Folding -/

/-- The slice that some names share, if there are any. -/
def sharedSlice (entries : List (String × α)) (folded : List String) : List (Slice α) :=
  if folded = [] then []
  else
    [{ name := foldedName
       value := Quantity.sum (folded.map (amountOf Prod.fst Prod.snd entries)) }]

/-- There are more slices than a limit allows.  A limit of zero is none. -/
def Exceeds (limit : Option Nat) (count most : Nat) : Prop :=
  limit = some most ∧ 0 < most ∧ most < count

/-- Names share a slice exactly when there are more of them than a limit allows, and then all share
it but one less than it allows. -/
def Limits (limit : Option Nat) (kept folded : List String) : Prop :=
  (folded = [] ∧ ∀ most, ¬ Exceeds limit kept.length most) ∨
    Exceeds limit (kept ++ folded).length (kept.length + 1)

/-- The slices of a pie divide what some entries hold. -/
structure Data.Divides (data : Data α) (limit : Option Nat) (entries : List (String × α))
    (kept folded : List String) : Prop where
  /-- The names with a positive sum are ranked; the first ones keep their slices. -/
  ranks : Ranks Prod.fst Prod.snd entries (kept ++ folded)
  /-- Only the limit makes names share a slice. -/
  limits : Limits limit kept folded
  /-- A kept name has a slice of its own sum; the other names share the last slice. -/
  slices : data.slices = kept.map (sliceOf entries) ++ sharedSlice entries folded
  /-- No more slices are left than the limit allows. -/
  count : ∀ most, limit = some most → 0 < most → data.slices.length ≤ most
  /-- The slices are positive. -/
  positive : ∀ slice ∈ data.slices, Quantity.zero < slice.value
  /-- No name that shares a slice has more than one that keeps its own. -/
  largest : ∀ first ∈ kept, ∀ second ∈ folded,
    amountOf Prod.fst Prod.snd entries second ≤ amountOf Prod.fst Prod.snd entries first

section Fold

variable {limit : Option Nat} {entries : List (String × α)} {kept folded : List String}

theorem fold_of_exceeds {slices : List (Slice α)} {most : Nat}
    (exceeds : Exceeds limit slices.length most) :
    fold limit slices = slices.take (most - 1) ++
      [{ name := foldedName
         value := Quantity.sum ((slices.drop (most - 1)).map (·.value)) }] := by
  obtain ⟨rfl, many⟩ := exceeds
  rw [fold, if_pos many]

theorem fold_of_not_exceeds {slices : List (Slice α)}
    (few : ¬ ∃ most, Exceeds limit slices.length most) : fold limit slices = slices := by
  cases limit with
  | none => rfl
  | some most =>
    rw [fold, if_neg]
    exact fun many => few ⟨most, rfl, many⟩

/-- The slices that are folded are those of the last names. -/
theorem fold_map (entries : List (String × α)) (limit : Option Nat) (names : List String) :
    ∃ kept folded, kept ++ folded = names ∧ Limits limit kept folded ∧
      fold limit (names.map (sliceOf entries)) =
        kept.map (sliceOf entries) ++ sharedSlice entries folded := by
  have count : (names.map (sliceOf entries)).length = names.length := List.length_map _
  by_cases many : ∃ most, Exceeds limit names.length most
  · obtain ⟨most, exceeds⟩ := many
    have length : (names.take (most - 1)).length + 1 = most := by
      have within := exceeds.2
      rw [List.length_take]
      omega
    have rest : names.drop (most - 1) ≠ [] := by
      have within := exceeds.2
      exact List.ne_nil_of_length_pos (by rw [List.length_drop]; omega)
    refine ⟨names.take (most - 1), names.drop (most - 1), List.take_append_drop _ _, .inr ?_, ?_⟩
    · rwa [List.take_append_drop, length]
    · rw [fold_of_exceeds (count.symm ▸ exceeds), sharedSlice, if_neg rest, ← List.map_take,
        ← List.map_drop, List.map_map]
      rfl
  · refine ⟨names, [], List.append_nil names, .inl ⟨rfl, not_exists.mp many⟩, ?_⟩
    rw [fold_of_not_exceeds (count.symm ▸ many)]
    exact (List.append_nil _).symm

theorem limits_nil (limit : Option Nat) : Limits limit [] [] :=
  .inl ⟨rfl, fun most exceeds => Nat.not_lt_zero most exceeds.2.2⟩

theorem Limits.count (limits : Limits limit kept folded) {most : Nat} (limited : limit = some most)
    (allowed : 0 < most) : kept.length + (sharedSlice entries folded).length ≤ most := by
  rcases limits with ⟨rfl, few⟩ | ⟨same, -, -⟩
  · exact Nat.not_lt.mp fun more => few most ⟨limited, allowed, more⟩
  · obtain rfl := Option.some.inj (limited.symm.trans same)
    have one : (sharedSlice entries folded).length ≤ 1 := by
      rw [sharedSlice]
      split
      · exact Nat.zero_le 1
      · exact le_rfl
    exact Nat.add_le_add_left one _

theorem divides_of_ranks [Quantity.Ordered α] {data : Data α}
    (ranks : Ranks Prod.fst Prod.snd entries (kept ++ folded)) (limits : Limits limit kept folded)
    (slices : data.slices = kept.map (sliceOf entries) ++ sharedSlice entries folded) :
    data.Divides limit entries kept folded where
  ranks := ranks
  limits := limits
  slices := slices
  count most limited allowed := by
    rw [slices, List.length_append, List.length_map]
    exact limits.count limited allowed
  positive slice member := by
    rw [slices, List.mem_append] at member
    have above {name : String} (ranked : name ∈ kept ++ folded) :
        Quantity.zero < amountOf Prod.fst Prod.snd entries name :=
      ((ranks.mem_iff name).mp ranked).2
    rcases member with own | shared
    · obtain ⟨name, member, rfl⟩ := List.mem_map.mp own
      exact above (List.mem_append_left folded member)
    · rw [sharedSlice] at shared
      split at shared
      case isTrue => cases shared
      case isFalse any =>
        obtain rfl := List.mem_singleton.mp shared
        apply Quantity.zero_lt_sum (mt List.map_eq_nil_iff.mp any)
        intro value member
        obtain ⟨name, there, rfl⟩ := List.mem_map.mp member
        exact above (List.mem_append_right kept there)
  largest first here second there := ranks.amountOf_le rfl here there

end Fold

/-! ## Pies of records -/

/-- The names are ranked, and folded as the limit says. -/
theorem exists_divides [Quantity.Ordered α] (rows : List Record) (config : Config) :
    ∃ (entries : List (String × α)) (kept folded : List String), Enters rows config entries ∧
      (ofRows rows config).Divides config.pie.maxSlices entries kept folded := by
  unfold Enters ofRows
  cases fields? rows config with
  | none =>
    have nothing : ranking Prod.fst Prod.snd ([] : List (String × α)) = [] := List.mergeSort_nil
    have ranks := ranks_ranking Prod.fst Prod.snd ([] : List (String × α))
    rw [nothing] at ranks
    exact ⟨[], [], [], rfl, divides_of_ranks ranks (limits_nil _) rfl⟩
  | some fields =>
    obtain ⟨nameField, valueField⟩ := fields
    let entries : List (String × α) := rows.filterMap (namedValue? nameField valueField)
    have ranks := ranks_ranking Prod.fst Prod.snd entries
    obtain ⟨kept, folded, parts, limits, slices⟩ :=
      fold_map entries config.pie.maxSlices (ranking Prod.fst Prod.snd entries)
    rw [← parts] at ranks
    rw [← ranked_sums] at slices
    exact ⟨_, kept, folded, reads_entries nameField valueField rows,
      divides_of_ranks ranks limits slices⟩

theorem total_eq_sum (rows : List Record) (config : Config) :
    (ofRows rows config : Data ℚ).total =
      Quantity.sum ((ofRows rows config).slices.map (·.value)) := by
  rw [ofRows]
  cases fields? rows config <;> rfl

theorem sum_sharedSlice (entries : List (String × ℚ)) (folded : List String) :
    ((sharedSlice entries folded).map (·.value)).sum =
      (folded.map (amountOf Prod.fst Prod.snd entries)).sum := by
  rw [sharedSlice]
  split
  case isTrue none =>
    rw [none]
    rfl
  case isFalse => rw [List.map_singleton, List.sum_singleton, Quantity.sum_rat]

/-- What is divided is all that is positive. -/
theorem Data.Divides.sum_values {data : Data ℚ} {limit : Option Nat} {entries : List (String × ℚ)}
    {kept folded : List String} (divides : data.Divides limit entries kept folded) :
    Quantity.sum (data.slices.map (·.value)) = positiveTotal Prod.fst Prod.snd entries := by
  have own : (kept.map (sliceOf entries)).map (·.value) =
      kept.map (amountOf Prod.fst Prod.snd entries) := List.map_map
  rw [← divides.ranks.sum_amountOf, Quantity.sum_rat, divides.slices, List.map_append, own,
    List.sum_append, sum_sharedSlice, List.map_append, List.sum_append]

/-- **A pie shows what its records hold.**  The names with a positive sum keep slices of their own,
in descending order of their sums, or share one slice as soon as there are more of them than the
limit allows.  In exact arithmetic the total is the sum of all sums that are positive, under any
limit. -/
theorem ofRows_divides (rows : List Record) (config : Config) :
    (∃ (entries : List (String × Float)) (kept folded : List String), Enters rows config entries ∧
      (ofRows rows config).Divides config.pie.maxSlices entries kept folded) ∧
    ∃ (entries : List (String × ℚ)) (kept folded : List String), Enters rows config entries ∧
      (ofRows rows config).Divides config.pie.maxSlices entries kept folded ∧
        (ofRows rows config).total = positiveTotal Prod.fst Prod.snd entries := by
  refine ⟨exists_divides rows config, ?_⟩
  obtain ⟨entries, kept, folded, enters, divides⟩ := exists_divides (α := ℚ) rows config
  refine ⟨entries, kept, folded, enters, divides, ?_⟩
  rw [total_eq_sum, divides.sum_values]

/-! ## Names -/

/-- A config that allows any number of slices. -/
def withoutLimit (config : Config) : Config :=
  { config with pie := { config.pie with maxSlices := none } }

/-- There are too many slices, and one that is kept goes by the name of the folded ones. -/
def Clashes (limit : Option Nat) (slices : List (Slice α)) : Prop :=
  ∃ most, Exceeds limit slices.length most ∧
    foldedName ∈ (slices.take (most - 1)).map (·.name)

section Names

variable {limit : Option Nat} {slices : List (Slice α)}

omit [Quantity α] in
theorem nodup_names_take (nodup : (slices.map (·.name)).Nodup) (count : Nat) :
    ((slices.take count).map (·.name)).Nodup :=
  nodup.sublist ((List.take_sublist _ _).map _)

theorem names_fold_of_exceeds {most : Nat} (exceeds : Exceeds limit slices.length most) :
    (fold limit slices).map (·.name) = (slices.take (most - 1)).map (·.name) ++ [foldedName] := by
  rw [fold_of_exceeds exceeds, List.map_append, List.map_singleton]

theorem nodup_fold_iff (nodup : (slices.map (·.name)).Nodup) :
    ((fold limit slices).map (·.name)).Nodup ↔ ¬ Clashes limit slices := by
  by_cases many : ∃ most, Exceeds limit slices.length most
  · obtain ⟨most, exceeds⟩ := many
    have clash : Clashes limit slices ↔ foldedName ∈ (slices.take (most - 1)).map (·.name) := by
      refine ⟨?_, fun kept => ⟨most, exceeds, kept⟩⟩
      rintro ⟨other, exceeds', kept⟩
      obtain rfl := Option.some.inj (exceeds.1.symm.trans exceeds'.1)
      exact kept
    rw [names_fold_of_exceeds exceeds, clash, List.nodup_append_comm, List.singleton_append,
      List.nodup_cons]
    exact and_iff_left (nodup_names_take nodup _)
  · rw [fold_of_not_exceeds many]
    refine iff_of_true nodup ?_
    rintro ⟨most, exceeds, -⟩
    exact many ⟨most, exceeds⟩

/-- Folding repeats no name but that of the folded slices. -/
theorem count_fold_le (nodup : (slices.map (·.name)).Nodup) {name : String}
    (other : name ≠ foldedName) : ((fold limit slices).map (·.name)).count name ≤ 1 := by
  by_cases many : ∃ most, Exceeds limit slices.length most
  · obtain ⟨most, exceeds⟩ := many
    have once := List.nodup_iff_count_le_one.mp (nodup_names_take nodup (most - 1)) name
    rw [names_fold_of_exceeds exceeds, List.count_append, List.count_singleton]
    simpa [other.symm] using once
  · rw [fold_of_not_exceeds many]
    exact List.nodup_iff_count_le_one.mp nodup name

end Names

theorem nodup_ranked_sums (nameField valueField : String) (rows : List Record) :
    ((ranked (sums (α := α) nameField valueField rows)).map (·.name)).Nodup := by
  rw [ranked_sums, List.map_map]
  exact (List.map_id _).symm ▸ nodup_ranking

/-- **Two slices of a pie go by one name only when a limit makes names share a slice and a kept name
is the one that the shared slice goes by.**  No other name is repeated. -/
theorem ofRows_names (rows : List Record) (config : Config) :
    (∀ name, name ≠ foldedName →
      ((ofRows rows config : Data α).slices.map (·.name)).count name ≤ 1) ∧
    (((ofRows rows config : Data α).slices.map (·.name)).Nodup ↔
      ¬ Clashes config.pie.maxSlices (ofRows rows (withoutLimit config) : Data α).slices) := by
  have same : fields? rows (withoutLimit config) = fields? rows config := rfl
  rw [ofRows, ofRows, same]
  cases fields? rows config with
  | none =>
    refine ⟨fun name _ => Nat.zero_le 1, iff_of_true List.nodup_nil ?_⟩
    rintro ⟨most, exceeds, -⟩
    exact Nat.not_lt_zero most exceeds.2.2
  | some fields =>
    have nodup := nodup_ranked_sums (α := α) fields.1 fields.2 rows
    exact ⟨fun name other => count_fold_le nodup other, nodup_fold_iff nodup⟩

/-- A name that records carry, and the name of the folded slices as well. -/
def otherRecords : List Record :=
  [[("name", .string "Other"), ("value", 5)],
    [("name", .string "a"), ("value", 3)],
    [("name", .string "b"), ("value", 2)]]

theorem clashing_names_of_other :
    ¬ ((ofRows otherRecords { pie := { maxSlices := some 2 } } : Data Float).slices.map
      (·.name)).Nodup := by
  have sorted : ranked (sums (α := Float) "name" "value" otherRecords) =
      sums "name" "value" otherRecords := by
    have positive : (sums (α := Float) "name" "value" otherRecords).filter
        (fun slice => decide (Quantity.zero < slice.value)) =
          sums "name" "value" otherRecords := by
      refine List.filter_eq_self.mpr ?_
      decide +kernel
    rw [ranked, positive]
    exact List.mergeSort_of_pairwise (by decide +kernel)
  have fields : fields? otherRecords { pie := { maxSlices := some 2 } } =
      some ("name", "value") := rfl
  rw [ofRows, fields]
  simp only [sorted]
  decide +kernel

end ChartCompiler.Pie
