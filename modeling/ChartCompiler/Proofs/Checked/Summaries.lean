import ChartCompiler.Proofs.Axis.Summaries
import ChartCompiler.Proofs.Checked.Pivot

/-!
# Box plots and quantile bands with their checks

The position of a category is where its summary is put.  That is inside the list of summaries,
because there is a summary for each category that is known (`Summaries.Valid`), and the order of
display has no positions but those of categories.  Quantile bands name their bands after the first
two and the last two of five quantiles, and whenever there is anything to show there are five names.
-/

set_option autoImplicit false

namespace ChartCompiler

variable {α : Type} [Quantity α]

/-! ## Registers -/

namespace CategoryRegister

def insertChecked (register : CategoryRegister) (cell : Json) :
    Checked (Option (Nat × CategoryRegister)) :=
  match Cell.label cell with
  | none => pure none
  | some name => do
    let (position, entries) ←
      Checked.enroll (fun entry => entry.1 = name) (name, cell) register.entries
    return some (position, { entries })

theorem insertChecked_eq (register : CategoryRegister) (cell : Json) :
    register.insertChecked cell = pure (register.insert cell) := by
  rw [insertChecked, insert]
  cases Cell.label cell with
  | none => rfl
  | some name =>
      simp only [Checked.enroll]
      cases register.entries.findIdx? (·.1 = name) with
      | some position => rfl
      | none => simp only [Checked.minus_length_append_singleton, pure_bind]

def displayOrderChecked (register : CategoryRegister) (time : Sampling) : Checked (List Nat) :=
  if time.isTimeSeries then
    chronologicalOrderChecked register.entries.length (register.entries.map (·.2))
  else pure (List.range register.entries.length)

theorem displayOrderChecked_eq (register : CategoryRegister) (time : Sampling) :
    register.displayOrderChecked time = pure (register.displayOrder time) := by
  rw [displayOrderChecked, displayOrder, chronologicalOrderChecked_eq (List.length_map _)]
  split <;> rfl

def displayChecked (register : CategoryRegister) : Checked CategoryDisplay := do
  let time := Sampling.ofCells (register.entries.map (·.2))
  let order ← register.displayOrderChecked time
  let labelled := fun (place : LabelPlace) => do
    let shown ← pickChecked order register.entries
    return shown.map fun (name, cell) => categoryLabel cell name time place
  let labels ← labelled .axis
  let titles ← labelled .tooltip
  return { order, labels, titles }

/-- Categories are displayed at positions of categories. -/
theorem displayOrder_inside (register : CategoryRegister) (time : Sampling) :
    ∀ position ∈ register.displayOrder time, position < register.entries.length := by
  intro position member
  rw [displayOrder] at member
  split at member
  · rw [← List.length_map (·.2)]
    exact List.mem_range.mp ((chronologicalOrder_perm _).mem_iff.mp member)
  · exact List.mem_range.mp member

theorem displayChecked_eq (register : CategoryRegister) :
    register.displayChecked = pure register.display := by
  simp only [displayChecked, displayOrderChecked_eq, pure_bind,
    pickChecked_eq (register.displayOrder_inside _)]
  rfl

end CategoryRegister

/-! ## Summaries -/

namespace Summaries

def addChecked (category : String) (fields : List String) (state : Summaries α) (row : Record) :
    Checked (Summaries α) :=
  match FiveNumbers.ofRow? fields row, row.cell? category with
  | some numbers, some cell => do
    match ← state.register.insertChecked cell with
    | none => return state
    | some (position, register) =>
      if position = state.summaries.length then
        return { register, summaries := state.summaries ++ [numbers] }
      else
        return { register, summaries := ← Checked.put state.summaries position numbers }
  | _, _ => pure state

variable {category : String} {fields : List String} {rows : List Record} {state : Summaries α}

/-- A summary is put beside its category. -/
theorem addChecked_eq (valid : state.Valid category fields rows) (row : Record) :
    state.addChecked category fields row = pure (state.add category fields row) := by
  rw [addChecked, add]
  cases FiveNumbers.ofRow? (α := α) fields row with
  | none => rfl
  | some numbers =>
      cases row.cell? category with
      | none => rfl
      | some cell =>
          simp only [CategoryRegister.insertChecked_eq, pure_bind, Option.bind_some]
          cases inserted : state.register.insert cell with
          | none => rfl
          | some grown =>
              obtain ⟨position, next⟩ := grown
              obtain ⟨name, -, growth⟩ := insert_cases inserted
              rcases growth with ⟨-, first, here⟩ | ⟨-, rfl, -⟩
              · have inside : position < state.summaries.length :=
                  valid.length ▸ (List.getElem?_eq_some_iff.mp here).1
                simp only [inside.ne, if_false, Checked.put_eq inside, pure_bind]
              · simp only [valid.length, if_true]

def ofRowsChecked (category : String) (fields : List String) (rows : List Record) :
    Checked (Summaries α) :=
  rows.foldlM (addChecked category fields) empty

theorem ofRowsChecked_eq (category : String) (fields : List String) (rows : List Record) :
    ofRowsChecked category fields rows =
      (pure (ofRows category fields rows) : Checked (Summaries α)) :=
  Checked.foldlM_eq (fun state => ∃ read, Valid category fields read state) ⟨[], valid_empty⟩
    (fun _ row _ ⟨_, valid⟩ => addChecked_eq valid row)
    (fun _ row _ ⟨read, valid⟩ => ⟨read ++ [row], valid.add row⟩)

/-- The summaries are picked in the order of display. -/
theorem pickChecked_summaries (valid : state.Valid category fields rows) :
    pickChecked state.register.display.order state.summaries =
      pure (pick state.register.display.order state.summaries) :=
  pickChecked_eq fun position member =>
    valid.length ▸ state.register.displayOrder_inside _ position member

end Summaries

/-! ## Box plots -/

namespace Boxplot

def ofRowsChecked (rows : List Record) (config : Config) : Checked (Data α) :=
  match fields? rows config with
  | none => pure { labels := [], titles := [], boxes := [] }
  | some (category, fields) => do
    let found ← Summaries.ofRowsChecked category fields rows
    let shown ← found.register.displayChecked
    let boxes ← pickChecked shown.order found.summaries
    return { labels := shown.labels, titles := shown.titles, boxes }

theorem ofRowsChecked_eq (rows : List Record) (config : Config) :
    ofRowsChecked rows config = (pure (ofRows rows config) : Checked (Data α)) := by
  rw [ofRowsChecked, ofRows]
  cases fields? rows config with
  | none => rfl
  | some found =>
      obtain ⟨category, fields⟩ := found
      have valid := Summaries.valid_ofRows (α := α) category fields rows
      simp only [Summaries.ofRowsChecked_eq, CategoryRegister.displayChecked_eq, pure_bind,
        Summaries.pickChecked_summaries valid]

end Boxplot

/-! ## Quantile bands -/

namespace QuantileBands

def ofRowsChecked (rows : List Record) (config : Config) : Checked (Data α) :=
  match fields? rows config with
  | none => pure { labels := [], titles := [], names := [], quantiles := [] }
  | some (category, fields) => do
    let found ← Summaries.ofRowsChecked category fields rows
    let shown ← found.register.displayChecked
    let quantiles ← pickChecked shown.order found.summaries
    return { labels := shown.labels, titles := shown.titles, names := names config, quantiles }

theorem ofRowsChecked_eq (rows : List Record) (config : Config) :
    ofRowsChecked rows config = (pure (ofRows rows config) : Checked (Data α)) := by
  rw [ofRowsChecked, ofRows]
  cases fields? rows config with
  | none => rfl
  | some found =>
      obtain ⟨category, fields⟩ := found
      have valid := Summaries.valid_ofRows (α := α) category fields rows
      simp only [Summaries.ofRowsChecked_eq, CategoryRegister.displayChecked_eq, pure_bind,
        Summaries.pickChecked_summaries valid]

/-- Where there are quantiles there are five names. -/
def Data.Named (data : Data α) : Prop :=
  data.quantiles ≠ [] → data.names.length = 5

theorem named_ofRows (rows : List Record) (config : Config) :
    (ofRows rows config : Data α).Named := by
  intro shown
  rw [ofRows] at shown ⊢
  cases resolved : fields? rows config with
  | none =>
      rw [resolved] at shown
      exact absurd rfl shown
  | some found => exact length_names config

def optionChecked (data : Data Float) (config : Config) (dark : Bool) : Checked (Option Json) :=
  if data.quantiles.isEmpty then pure none
  else do
    let name := Checked.item data.names
    let outer := bandName (← name 0) (← name 4)
    let inner := bandName (← name 1) (← name 3)
    return some (around outer inner data config dark)

theorem optionChecked_eq {data : Data Float} (named : data.Named) (config : Config)
    (dark : Bool) : optionChecked data config dark = pure (option? data config dark) := by
  rw [optionChecked, option?]
  by_cases shown : data.quantiles = []
  · rw [shown]
    rfl
  · have name (position : Nat) (known : position < 5) :
        Checked.item data.names position = pure (data.names.getD position "") :=
      Checked.item_getD (named shown ▸ known) ""
    simp [shown, name]

end QuantileBands

end ChartCompiler
