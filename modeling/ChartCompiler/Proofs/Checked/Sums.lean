import ChartCompiler.Chart.Pie
import ChartCompiler.Chart.WordCloud
import ChartCompiler.Proofs.Axis.Alignment
import ChartCompiler.Proofs.Checked.Scalar

/-!
# Pies and word clouds with their checks

Both add up values by name in a ledger.  A pie folds its smallest slices only when there are more of
them than allowed, so the position where it cuts its list is inside of it.  A word cloud repeats its
colors, and when there is a word there is a color.
-/

set_option autoImplicit false

namespace ChartCompiler

variable {α : Type} [Quantity α]

/-! ## Pies -/

namespace Pie

def sumsChecked (nameField valueField : String) (rows : List Record) :
    Checked (List (Slice α)) := do
  let accounts ← rows.foldlM
    (fun accounts row =>
      match row.label? nameField with
      | none => pure accounts
      | some name =>
        let value := ((row.number? valueField).map Quantity.ofFloat).getD Quantity.zero
        Checked.post name Quantity.zero (· + value) accounts)
    ([] : List (String × α))
  return accounts.map fun (name, value) => { name, value }

theorem sumsChecked_eq (nameField valueField : String) (rows : List Record) :
    sumsChecked nameField valueField rows =
      (pure (sums nameField valueField rows) : Checked (List (Slice α))) := by
  rw [sumsChecked, Checked.foldlM_eq (fun _ => True) trivial ?_ fun _ _ _ _ => trivial, pure_bind]
  · rfl
  · intro accounts row _ _
    cases row.label? nameField with
    | none => rfl
    | some name => exact Checked.post_eq name _ _ accounts

def foldChecked (limit : Option Nat) (slices : List (Slice α)) : Checked (List (Slice α)) :=
  match limit with
  | none => pure slices
  | some limit =>
    if 0 < limit ∧ limit < slices.length then do
      let (kept, folded) ← Checked.cut slices (← Checked.minus limit 1)
      return kept ++ [{ name := foldedName, value := Quantity.sum (folded.map (·.value)) }]
    else pure slices

theorem foldChecked_eq (limit : Option Nat) (slices : List (Slice α)) :
    foldChecked limit slices = pure (fold limit slices) := by
  cases limit with
  | none => rfl
  | some limit =>
      by_cases many : 0 < limit ∧ limit < slices.length
      · have positive : 1 ≤ limit := many.1
        have inside : limit - 1 ≤ slices.length := by omega
        simp only [foldChecked, fold, many, and_self, if_true, Checked.minus_eq positive,
          Checked.cut_eq inside, pure_bind]
      · simp only [foldChecked, fold, many, if_false]

def ofRowsChecked (rows : List Record) (config : Config) : Checked (Data α) :=
  match fields? rows config with
  | none => pure empty
  | some (nameField, valueField) => do
    let slices ← sumsChecked nameField valueField rows
    let slices ← foldChecked config.pie.maxSlices (ranked slices)
    return { slices, total := Quantity.sum (slices.map (·.value)) }

theorem ofRowsChecked_eq (rows : List Record) (config : Config) :
    ofRowsChecked rows config = (pure (ofRows rows config) : Checked (Data α)) := by
  rw [ofRowsChecked, ofRows]
  cases fields? rows config with
  | none => rfl
  | some found => simp only [sumsChecked_eq, foldChecked_eq, pure_bind]

end Pie

/-! ## Word clouds -/

namespace WordCloud

def sumsChecked (entries : List (String × α)) : Checked (List (String × α)) := do
  let accounts ← entries.foldlM
    (fun accounts (text, value) =>
      Checked.post (Text.lowercase text) (text, Quantity.zero)
        (fun (spelling, sum) => (spelling, sum + value)) accounts)
    ([] : List (String × (String × α)))
  return accounts.map (·.2)

theorem sumsChecked_eq (entries : List (String × α)) :
    sumsChecked entries = pure (sums entries) := by
  rw [sumsChecked, Checked.foldlM_eq (fun _ => True) trivial
    (fun accounts _ _ _ => Checked.post_eq _ _ _ accounts) fun _ _ _ _ => trivial, pure_bind]
  rfl

def ofRowsChecked (rows : List Record) (config : Config) : Checked (Data α) :=
  match fields? rows config with
  | none => pure { words := [], total := Quantity.zero }
  | some (wordField, valueField) => do
    let sums ← sumsChecked
      (rows.filterMap (mention? config.wordCloud.minWordLength wordField valueField))
    return ofSums config.wordCloud.maxWords sums

theorem ofRowsChecked_eq (rows : List Record) (config : Config) :
    ofRowsChecked rows config = (pure (ofRows rows config) : Checked (Data α)) := by
  rw [ofRowsChecked, ofRows]
  cases fields? rows config with
  | none => rfl
  | some found => simp only [sumsChecked_eq, pure_bind, ofEntries]

def fontSizeChecked (options : WordCloudOptions) (smallest largest value : Float) :
    Checked Float :=
  if smallest < largest then (fontScale options smallest largest).mapChecked value
  else pure options.maxFontSize

theorem fontSizeChecked_eq (options : WordCloudOptions) (smallest largest value : Float) :
    fontSizeChecked options smallest largest value =
      pure (fontSize options smallest largest value) := by
  rw [fontSizeChecked, fontSize, Scale.mapChecked_eq]
  split <;> rfl

def optionChecked (data : Data Float) (config : Config) (dark : Bool) : Checked (Option Json) :=
  match data.words.head?, data.words.getLast? with
  | some largest, some smallest => do
    let writer := TooltipWriter.forMode (ValueFormatter.ofConfig config) dark
    let colors ← config.seriesColorsChecked (min data.words.length 24) dark
    let items ← data.words.zipIdx.mapM fun (word, index) => do
      let color ← Checked.item colors (← Checked.remainder index colors.length)
      let size ← fontSizeChecked config.wordCloud smallest.value largest.value word.value
      return item writer word color size
    return some (around items config dark)
  | _, _ => pure none

theorem optionChecked_eq (data : Data Float) (config : Config) (dark : Bool) :
    optionChecked data config dark = pure (option? data config dark) := by
  rw [optionChecked, option?]
  cases first : data.words.head? with
  | none => rfl
  | some largest =>
      cases data.words.getLast? with
      | none => rfl
      | some smallest =>
          have colored : 0 < (wordColors data config dark).length := by
            have worded : 0 < data.words.length := by
              cases words : data.words with
              | nil => simp [words] at first
              | cons _ _ => exact Nat.zero_lt_succ _
            rw [wordColors, length_seriesColors]
            omega
          simp only [Config.seriesColorsChecked_eq, fontSizeChecked_eq, pure_bind,
            ← wordColors.eq_1]
          rw [Checked.mapM_eq, pure_bind]
          intro (word, index) _
          rw [Checked.remainder_eq colored, pure_bind,
            Checked.item_getD (Nat.mod_lt index colored) "", pure_bind]

end WordCloud

end ChartCompiler
