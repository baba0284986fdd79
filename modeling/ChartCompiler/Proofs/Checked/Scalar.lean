import ChartCompiler.Format.Date
import ChartCompiler.Format.Value
import ChartCompiler.Guide.Legend
import ChartCompiler.Guide.Palette
import ChartCompiler.Guide.Scale
import ChartCompiler.Proofs.Checked.Operation
import ChartCompiler.Statistics.Extent

/-!
# Scales, percentiles, colors and names with their checks

What stands between values and marks: scales and percentiles clamp to fixed ranges, colors are
repeated from a list that is never empty, the names of months, of units and of line patterns are
read from tables, and digits are counted off in groups.
-/

set_option autoImplicit false

namespace ChartCompiler

/-! ## Percentiles -/

def percentileChecked (sorted : List Float) (percent : Float) : Checked (Option Float) :=
  match sorted with
  | [] => pure none
  | [only] => pure (some only)
  | first :: rest => do
    let hundred : Float := Quantity.ofNat 100
    let share := (← Checked.clamp Quantity.zero hundred percent) / hundred
    let last ← Checked.minus (first :: rest).length 1
    return atRank (first :: rest) (share * Quantity.ofNat last)

theorem percentileChecked_eq (sorted : List Float) (percent : Float) :
    percentileChecked sorted percent = pure (percentile sorted percent) := by
  match sorted with
  | [] => rfl
  | [only] => rfl
  | first :: second :: rest =>
      have ordered : (Quantity.zero : Float) ≤ Quantity.ofNat 100 := by decide
      have several : 1 ≤ (first :: second :: rest).length := Nat.le_add_left 1 _
      simp only [percentileChecked, Checked.clamp_eq ordered, pure_bind, Checked.minus_eq several]
      rfl

def percentileBoundsChecked (values : List Float) (lower upper : Float) :
    Checked (Option (Extent Float)) := do
  let sorted := sortedFinite values
  let low ← percentileChecked sorted lower
  let high ← percentileChecked sorted upper
  return boundsBetween sorted low high

theorem percentileBoundsChecked_eq (values : List Float) (lower upper : Float) :
    percentileBoundsChecked values lower upper = pure (percentileBounds values lower upper) := by
  simp only [percentileBoundsChecked, percentileChecked_eq, pure_bind]
  rfl

/-! ## Scales -/

def Scale.normalizeChecked (scale : Scale Float) (value : Float) : Checked Float :=
  let width := scale.domainEnd - scale.domainStart
  let flat := width ≤ Quantity.zero ∧ Quantity.zero ≤ width
  if flat ∨ !Quantity.isFinite width ∨ !Quantity.isFinite value then pure Quantity.zero
  else Checked.clamp Quantity.zero (Quantity.ofNat 1) ((value - scale.domainStart) / width)

theorem Scale.normalizeChecked_eq (scale : Scale Float) (value : Float) :
    scale.normalizeChecked value = pure (scale.normalize value) := by
  have ordered : (Quantity.zero : Float) ≤ Quantity.ofNat 1 := by decide
  rw [normalizeChecked, normalize, Checked.clamp_eq ordered]
  split <;> rfl

def Scale.mapChecked (scale : Scale Float) (value : Float) : Checked Float := do
  let share ← scale.normalizeChecked value
  return scale.rangeStart + share * (scale.rangeEnd - scale.rangeStart)

theorem Scale.mapChecked_eq (scale : Scale Float) (value : Float) :
    scale.mapChecked value = pure (scale.map value) := by
  rw [mapChecked, normalizeChecked_eq, pure_bind]
  rfl

def RootScale.mapChecked (scale : RootScale Float) (value : Float) : Checked Float :=
  scale.inner.mapChecked (positiveRoot value)

theorem RootScale.mapChecked_eq (scale : RootScale Float) (value : Float) :
    scale.mapChecked value = pure (scale.map value) :=
  Scale.mapChecked_eq scale.inner (positiveRoot value)

/-! ## Colors -/

def chooseColorsChecked (explicit theme : List String) (count : Nat) : Checked (List String) :=
  let available := availableColors explicit theme
  (List.range count).mapM fun index => do
    Checked.item available (← Checked.remainder index available.length)

/-- There are colors at all: those of the built-in palette are not blank. -/
theorem length_availableColors_pos (explicit theme : List String) :
    0 < (availableColors explicit theme).length := by
  refine List.length_pos_of_mem (a := "#4F46E5") ?_
  rw [availableColors, List.mem_filter]
  refine ⟨?_, by decide⟩
  exact List.mem_append_right _ (List.mem_cons_self)

theorem chooseColorsChecked_eq (explicit theme : List String) (count : Nat) :
    chooseColorsChecked explicit theme count = pure (chooseColors explicit theme count) := by
  refine Checked.mapM_eq fun index _ => ?_
  have some_ := length_availableColors_pos explicit theme
  rw [Checked.remainder_eq some_, pure_bind]
  exact Checked.item_getD (Nat.mod_lt index some_) ""

def Config.seriesColorsChecked (config : Config) (count : Nat) (dark : Bool) :
    Checked (List String) :=
  chooseColorsChecked config.colors (config.themeColors dark) count

theorem Config.seriesColorsChecked_eq (config : Config) (count : Nat) (dark : Bool) :
    config.seriesColorsChecked count dark = pure (config.seriesColors count dark) :=
  chooseColorsChecked_eq _ _ _

/-! ## Names from tables -/

def LinePattern.nthChecked (index : Nat) : Checked LinePattern := do
  let position ← Checked.remainder index cycle.length
  Checked.item cycle position

theorem LinePattern.nthChecked_eq (index : Nat) : nthChecked index = pure (nth index) := by
  have inside : index % 3 < cycle.length := Nat.mod_lt _ (by decide)
  rw [nthChecked, Checked.remainder_eq (by decide), pure_bind]
  exact Checked.item_getD inside solid

def monthNameChecked (month : Nat) : Checked String := do
  let before ← Checked.minus month 1
  let position ← Checked.remainder before 12
  Checked.item monthNames position

theorem monthNameChecked_eq {month : Nat} (first : 1 ≤ month) (last : month ≤ 12) :
    monthNameChecked month = pure (monthName month) := by
  have inside : month - 1 < monthNames.length := by simp only [monthNames, List.length_cons]; omega
  rw [monthNameChecked, Checked.minus_eq first, pure_bind, Checked.remainder_eq (by decide),
    pure_bind, Nat.mod_eq_of_lt (by omega), Checked.item_getD inside "", monthName]

/-! ## Digits in groups -/

/-- `groupDigits` with its checks: a digit other than the first follows a comma when the digits
before it fill up their groups. -/
def groupDigitsChecked (digits : List Char) : Checked (List Char) := do
  let lead ← Checked.remainder digits.length 3
  let groups ← digits.zipIdx.mapM fun (digit, index) => do
    let beyond ← Checked.minus (index + 3) lead
    let inGroup ← Checked.remainder beyond 3
    return if 0 < index ∧ inGroup = 0 then [',', digit] else [digit]
  return groups.flatten

/-- The digits from a position on, counted from the first. -/
theorem flatMap_digits_eq (digits : List Char) (index : Nat) :
    ((digits.zipIdx index).map fun (digit, index') =>
        if 0 < index' ∧ (index' + 3 - (index + digits.length) % 3) % 3 = 0 then [',', digit]
        else [digit]).flatten =
      if 0 < index ∧ digits.length ≠ 0 ∧ digits.length % 3 = 0 then ',' :: groupDigits digits
      else groupDigits digits := by
  induction digits generalizing index with
  | nil => simp [groupDigits]
  | cons digit rest ih =>
      have later := ih (index + 1)
      rw [Nat.add_right_comm, Nat.add_assoc] at later
      have full : (index + 3 - (index + (rest.length + 1)) % 3) % 3 = 0 ↔
          (rest.length + 1) % 3 = 0 := by omega
      have next : groupDigits (digit :: rest) = digit ::
          (if 0 < index + 1 ∧ rest.length ≠ 0 ∧ rest.length % 3 = 0 then ',' :: groupDigits rest
            else groupDigits rest) := by
        rw [groupDigits]
        simp only [Nat.zero_lt_succ, true_and]
        split <;> rfl
      rw [List.zipIdx_cons, List.map_cons, List.flatten_cons, List.length_cons, later, next]
      generalize (if 0 < index + 1 ∧ rest.length ≠ 0 ∧ rest.length % 3 = 0 then
        ',' :: groupDigits rest else groupDigits rest) = grouped
      simp only [full]
      by_cases comma : 0 < index ∧ (rest.length + 1) % 3 = 0
      · rw [if_pos comma, if_pos ⟨comma.1, Nat.succ_ne_zero _, comma.2⟩]
        rfl
      · rw [if_neg comma, if_neg fun all => comma ⟨all.1, all.2.2⟩]
        rfl

theorem groupDigitsChecked_eq (digits : List Char) :
    groupDigitsChecked digits = pure (groupDigits digits) := by
  have three : 0 < 3 := by decide
  have lead : digits.length % 3 < 3 := Nat.mod_lt _ three
  have groups := flatMap_digits_eq digits 0
  rw [Nat.zero_add, if_neg fun none => Nat.lt_irrefl 0 none.1] at groups
  rw [groupDigitsChecked, Checked.remainder_eq three, pure_bind, ← groups]
  refine (congrArg (· >>= _) (Checked.mapM_eq fun (digit, index) _ => ?_)).trans (pure_bind _ _)
  have fits : digits.length % 3 ≤ index + 3 :=
    Nat.le_trans (Nat.le_of_lt lead) (Nat.le_add_left 3 index)
  simp only [Checked.minus_eq fits, Checked.remainder_eq three, pure_bind]

/-! ## Units of short labels -/

namespace Compact

variable {α : Type} [Quantity α]

/-- `settle` with its checks, from the unit at a position on. -/
def settleChecked (units : List CompactUnit) (magnitude : α) : Nat → Nat → Checked (Compact α)
  | 0, position => do return inUnit magnitude (← Checked.item units position)
  | more + 1, position => do
    let compact := inUnit magnitude (← Checked.item units position)
    if Quantity.ofNat 1000 ≤ compact.mantissa ∧ position + 1 < units.length then
      settleChecked units magnitude more (position + 1)
    else return compact

/-- `Compact.of` with its checks: from the largest unit that is reached on. -/
def ofChecked (magnitude : α) : Checked (Compact α) :=
  let units := CompactUnit.one :: CompactUnit.larger
  let reached := CompactUnit.larger.takeWhile fun unit =>
    decide (Quantity.ofNat unit.size ≤ magnitude)
  settleChecked units magnitude (units.length - reached.length) reached.length

theorem settleChecked_eq (magnitude : α) (before : List CompactUnit) (unit : CompactUnit)
    (rest : List CompactUnit) {more : Nat} (enough : rest.length ≤ more) :
    settleChecked (before ++ unit :: rest) magnitude more before.length =
      pure (settle magnitude unit rest) := by
  have here : Checked.item (before ++ unit :: rest) before.length = pure unit :=
    Checked.item_eq (by simp)
  induction rest generalizing before unit more with
  | nil => cases more <;> simp [settleChecked, here, settle]
  | cons next rest ih =>
      cases more with
      | zero => simp at enough
      | succ more =>
          have onward := ih (before ++ [unit]) next (Nat.le_of_succ_le_succ enough)
            (Checked.item_eq (by simp))
          simp only [List.append_assoc, List.cons_append, List.nil_append, List.length_append,
            List.length_singleton] at onward
          simp only [settleChecked, here, pure_bind, onward, settle]
          have inside : before.length + 1 < (before ++ unit :: next :: rest).length := by simp
          simp only [inside, and_true]
          split <;> rfl

/-- A unit is chosen from the largest one that is reached on. -/
theorem choose_eq_settle (magnitude : α) (unit : CompactUnit) (rest : List CompactUnit) :
    ∃ before chosen after, unit :: rest = before ++ chosen :: after ∧
      before.length = (rest.takeWhile fun unit =>
        decide (Quantity.ofNat unit.size ≤ magnitude)).length ∧
      Compact.choose magnitude unit rest = settle magnitude chosen after := by
  induction rest generalizing unit with
  | nil => exact ⟨[], unit, [], rfl, rfl, rfl⟩
  | cons next rest ih =>
      by_cases reached : Quantity.ofNat next.size ≤ magnitude
      · obtain ⟨before, chosen, after, split, count, same⟩ := ih next
        refine ⟨unit :: before, chosen, after, congrArg (unit :: ·) split, ?_, ?_⟩
        · rw [List.takeWhile_cons_of_pos (by simpa using reached), List.length_cons,
            List.length_cons, count]
        · rw [Compact.choose, if_pos reached, same]
      · refine ⟨[], unit, next :: rest, rfl, ?_, ?_⟩
        · rw [List.takeWhile_cons_of_neg (by simpa using reached)]
        · rw [Compact.choose, if_neg reached]

theorem ofChecked_eq (magnitude : α) : ofChecked magnitude = pure (of magnitude) := by
  obtain ⟨before, chosen, after, units, count, same⟩ :=
    choose_eq_settle magnitude CompactUnit.one CompactUnit.larger
  rw [of, same, ofChecked, ← count, units]
  refine settleChecked_eq magnitude before chosen after ?_
  rw [List.length_append, List.length_cons]
  omega

end Compact

end ChartCompiler
