import ChartCompiler.Proofs.Axis.Summaries
import ChartCompiler.Proofs.Pivot.Display

/-!
# Registers and tables agree

Categories are grouped, put in order and labelled twice: by a table, which rearranges its own
contents, and by a register, which only computes the positions.  The register of some cells holds
the categories of the table of the same rows, each with the same first cell
(`CategoryRegister.entries_ofCells`); order and labels are functions of these pairs.

A box plot keeps such a register while it reads its rows (`Summaries.register_ofRows`).  So its
axis is the one that bars of the same rows have.
-/

set_option autoImplicit false

namespace ChartCompiler

variable {α : Type}

/-! ## The register of some cells -/

namespace CategoryRegister

/-- The register after one more cell.  A cell without a label is passed over. -/
def next (register : CategoryRegister) (cell : Json) : CategoryRegister :=
  ((register.insert cell).map (·.2)).getD register

/-- The register of some cells. -/
def ofCells (cells : List Json) : CategoryRegister :=
  cells.foldl next empty

theorem next_of_unlabelled {cell : Json} (unlabelled : Cell.label cell = none)
    (register : CategoryRegister) : register.next cell = register := by
  rw [next, insert, unlabelled]
  rfl

theorem entries_next {cell : Json} {name : String} (labelled : Cell.label cell = some name)
    (register : CategoryRegister) :
    (register.next cell).entries =
      if name ∈ register.entries.map (·.1) then register.entries
      else register.entries ++ [(name, cell)] := by
  cases inserted : register.insert cell with
  | none =>
      simp only [insert, labelled] at inserted
      split at inserted <;> cases inserted
  | some grown =>
      obtain ⟨other, labelled', growth⟩ := Summaries.insert_cases inserted
      obtain rfl := Option.some.inj (labelled.symm.trans labelled')
      rw [next, inserted, Option.map_some, Option.getD_some]
      rcases growth with ⟨same, first, here⟩ | ⟨new, -, grown⟩
      · have known : name ∈ register.entries.map (·.1) :=
          List.mem_map.mpr ⟨(name, first), List.mem_of_getElem? here, rfl⟩
        rw [same, if_pos known]
      · rw [if_neg new, grown]

theorem ofCells_append_singleton (cells : List Json) (cell : Json) :
    ofCells (cells ++ [cell]) = (ofCells cells).next cell := by
  rw [ofCells, List.foldl_append, List.foldl_cons, List.foldl_nil, ofCells]

/-- Cells without labels leave no trace. -/
theorem ofCells_filter (cells : List Json) :
    ofCells (cells.filter fun cell => (Cell.label cell).isSome) = ofCells cells := by
  induction cells using List.reverseRecOn with
  | nil => rfl
  | append_singleton cells cell ih =>
      rw [List.filter_append, ofCells_append_singleton]
      cases labelled : Cell.label cell with
      | none =>
          rw [next_of_unlabelled labelled, ← ih]
          simp [labelled]
      | some name =>
          rw [← ih, ← ofCells_append_singleton]
          simp [labelled]

theorem categoriesOf_append_singleton (entries : List (PivotEntry α)) (entry : PivotEntry α) :
    categoriesOf (entries ++ [entry]) = addNew entry.category (categoriesOf entries) := by
  rw [categoriesOf, List.map_append, List.map_singleton, distinct_append_singleton, categoriesOf]

/-- **The register of the cells of a table holds the categories of the table, each with its first
cell.** -/
theorem entries_ofCells {entries : List (PivotEntry α)}
    (labelled : ∀ entry ∈ entries, Cell.label entry.cell = some entry.category) :
    (ofCells (entries.map (·.cell))).entries =
      (categoriesOf entries).map fun category => (category, cellOf entries category) := by
  induction entries using List.reverseRecOn with
  | nil => rfl
  | append_singleton entries entry ih =>
      have earlier := ih fun other member => labelled other (List.mem_append_left _ member)
      -- The categories that are there have been read from a cell of an earlier row.
      have read : (categoriesOf entries).map (fun category => (category, cellOf entries category)) =
          (categoriesOf entries).map fun category =>
            (category, cellOf (entries ++ [entry]) category) := by
        refine List.map_congr_left fun category member => ?_
        rw [cellOf, cellOf, firstCell?_of_mem (mem_distinct.mp member)]
      have names : (ofCells (entries.map (·.cell))).entries.map (·.1) = categoriesOf entries := by
        rw [earlier, List.map_map]
        exact List.map_id _
      have last := labelled entry (List.mem_append_right _ (List.mem_singleton_self entry))
      rw [List.map_append, List.map_singleton, ofCells_append_singleton, entries_next last, names,
        earlier, read]
      rw [categoriesOf_append_singleton]
      by_cases known : entry.category ∈ categoriesOf entries
      · rw [if_pos known, addNew_of_mem known]
      · have new : entry.category ∉ entries.map (·.category) := mt mem_distinct.mpr known
        have first : cellOf (entries ++ [entry]) entry.category = entry.cell := by
          rw [cellOf, firstCell?_of_not_mem new, Option.getD_some]
        rw [if_neg known, addNew_of_not_mem known, List.map_append, List.map_singleton, first]

end CategoryRegister

/-! ## The cells of a table -/

namespace PivotFields

/-- The category cell of a row that has a series, where series are told apart. -/
def categoryCell? (fields : PivotFields) (row : Record) : Option Json :=
  if fields.series.all fun field => (row.label? field).isSome then row.cell? fields.category
  else none

/-- The category cells of some rows, in the order of the rows. -/
def categoryCells (fields : PivotFields) (rows : List Record) : List Json :=
  rows.filterMap fields.categoryCell?

variable [Quantity α]

theorem map_cell_contribution? (fields : PivotFields) (row : Record) :
    (fields.contribution? row : Option (PivotEntry α)).map (·.cell) =
      (fields.categoryCell? row).filter fun cell => (Cell.label cell).isSome := by
  by_cases accepted : fields.accepts row = true
  · obtain ⟨entry, given, reads⟩ := contribution?_of_accepts (α := α) accepted
    have divided := (Bool.and_eq_true_iff.mp accepted).2
    rw [given, categoryCell?, if_pos divided, reads.cell, Option.map_some,
      Option.filter_some_pos (by rw [reads.category]; rfl)]
  · rw [contribution?_of_not_accepts accepted, Option.map_none, categoryCell?]
    rw [accepts, Record.label?, Bool.and_eq_true_iff, not_and'] at accepted
    split
    · next divided =>
      cases here : row.cell? fields.category with
      | none => rfl
      | some cell =>
          rw [here, Option.bind_some] at accepted
          have unlabelled := Bool.eq_false_of_not_eq_true (accepted divided)
          rw [Option.filter_some, unlabelled]
          rfl
    · rfl

/-- A table reads the cells that have a label. -/
theorem map_cell_filterMap (fields : PivotFields) (rows : List Record) :
    (rows.filterMap (fields.contribution? (α := α))).map (·.cell) =
      (fields.categoryCells rows).filter fun cell => (Cell.label cell).isSome := by
  rw [List.map_filterMap, categoryCells, List.filter_filterMap]
  exact List.filterMap_congr fun row _ => map_cell_contribution? fields row

end PivotFields

/-! ## Summaries -/

/-- A box plot keeps the register of its complete rows. -/
theorem Summaries.register_ofRows [Quantity α] (category : String) (numbers : List String)
    (rows : List Record) :
    (ofRows category numbers rows : Summaries α).register =
      .ofCells ((rows.filter fun row =>
        (FiveNumbers.ofRow? (α := α) numbers row).isSome).filterMap (·.cell? category)) := by
  induction rows using List.reverseRecOn with
  | nil => rfl
  | append_singleton rows row ih =>
      rw [ofRows, List.foldl_append, List.foldl_cons, List.foldl_nil, ← ofRows, add,
        List.filter_append, List.filterMap_append]
      cases complete : FiveNumbers.ofRow? (α := α) numbers row with
      | none => simp [complete, ih]
      | some summary =>
          cases here : row.cell? category with
          | none => simp [complete, here, ih]
          | some cell =>
              have last : ([row].filter fun row =>
                  (FiveNumbers.ofRow? (α := α) numbers row).isSome).filterMap (·.cell? category) =
                    [cell] := by
                simp [complete, here]
              rw [last, CategoryRegister.ofCells_append_singleton, ← ih, CategoryRegister.next,
                Option.bind_some]
              cases CategoryRegister.insert _ cell with
              | none => rfl
              | some grown =>
                  dsimp only
                  split <;> rfl

/-! ## Display -/

namespace CategoryRegister

/-- A register shows its categories as a table of some rows does. -/
structure Agrees [Quantity α] (register : CategoryRegister) (rows : List Record)
    (fields : PivotFields) (aggregation : Aggregation) : Prop where
  /-- Both have seen the same categories, and have read each from the same cell. -/
  seen : register.entries.unzip =
    ((Pivot.build rows fields aggregation : Pivot α).categories,
      (Pivot.build rows fields aggregation : Pivot α).categoryCells)
  /-- The order of the register takes the table to the one that is shown. -/
  pivot : (TimedPivot.build rows fields aggregation : TimedPivot α).pivot =
    (Pivot.build rows fields aggregation).reorder register.display.order
  /-- Both show the categories in the same order. -/
  shown : (pick register.display.order register.entries).map (·.1) =
    (TimedPivot.build rows fields aggregation : TimedPivot α).pivot.categories
  /-- Both write the same labels on the axis. -/
  labels : register.display.labels =
    (TimedPivot.build rows fields aggregation : TimedPivot α).labels .axis
  /-- Both give the same titles to the tooltips. -/
  titles : register.display.titles =
    (TimedPivot.build rows fields aggregation : TimedPivot α).labels .tooltip

/-- Order and labels are functions of the categories and their first cells. -/
theorem display_of_entries {register : CategoryRegister} {entries : List (PivotEntry α)}
    (known : register.entries =
      (categoriesOf entries).map fun category => (category, cellOf entries category)) :
    pick register.display.order (categoriesOf entries) = shownCategories entries ∧
      register.display.labels = (shownCategories entries).map (labelOf entries .axis) ∧
      register.display.titles = (shownCategories entries).map (labelOf entries .tooltip) := by
  have cells : register.entries.map (·.2) = (categoriesOf entries).map (cellOf entries) := by
    rw [known, List.map_map]
    rfl
  have order : pick register.display.order (categoriesOf entries) = shownCategories entries := by
    rw [display, displayOrder, cells, shownCategories, samplingOf]
    split
    · rfl
    · rw [known, List.length_map, pick_range]
  have labels (place : LabelPlace) :
      (pick register.display.order register.entries).map (fun entry =>
        categoryLabel entry.2 entry.1 (samplingOf entries) place) =
        (shownCategories entries).map (labelOf entries place) := by
    rw [known, pick_map, order, List.map_map]
    rfl
  refine ⟨order, ?_, ?_⟩
  · rw [← labels .axis, samplingOf, ← cells]
    rfl
  · rw [← labels .tooltip, samplingOf, ← cells]
    rfl

theorem agrees_ofCells [Quantity α] (rows : List Record) (fields : PivotFields)
    (aggregation : Aggregation) :
    (ofCells (fields.categoryCells rows)).Agrees (α := α) rows fields aggregation := by
  have labelled : ∀ entry ∈ rows.filterMap (fields.contribution? (α := α)),
      Cell.label entry.cell = some entry.category := by
    intro entry member
    obtain ⟨row, -, reads⟩ := PivotFields.exists_row member
    exact reads.category
  have known := entries_ofCells labelled
  rw [PivotFields.map_cell_filterMap, ofCells_filter] at known
  obtain ⟨order, labels, titles⟩ := display_of_entries known
  refine ⟨?_, ?_, ?_, ?_, ?_⟩
  · rw [Pivot.build_eq_arranged, known, List.unzip_eq_map, List.map_map, List.map_map,
      Pivot.arranged]
    exact congrArg₂ Prod.mk (List.map_id _) rfl
  · rw [Pivot.build_eq_arranged, Pivot.reorder_arranged, order, TimedPivot.build_eq_shown,
      TimedPivot.shown]
  · rw [known, pick_map, order, List.map_map, TimedPivot.build_eq_shown, TimedPivot.shown,
      Pivot.arranged]
    exact List.map_id _
  · rw [labels, TimedPivot.build_eq_shown, TimedPivot.labels_shown]
  · rw [titles, TimedPivot.build_eq_shown, TimedPivot.labels_shown]

/-- **Registers and tables agree.**  The register of the category cells of some rows shows the same
categories, in the same order and with the same labels, as a table of the rows; and so does the
register of a box plot, beside a table of the rows that are complete. -/
theorem register_agrees_with_table [Quantity α] (rows : List Record) (fields : PivotFields)
    (aggregation : Aggregation) (numbers : List String) :
    (ofCells (fields.categoryCells rows)).Agrees (α := α) rows fields aggregation ∧
      (Summaries.ofRows fields.category numbers rows : Summaries α).register.Agrees (α := α)
        (rows.filter fun row => (FiveNumbers.ofRow? (α := α) numbers row).isSome)
        { fields with series := none } aggregation := by
  refine ⟨agrees_ofCells rows fields aggregation, ?_⟩
  rw [Summaries.register_ofRows]
  exact agrees_ofCells _ { fields with series := none } aggregation

end CategoryRegister

end ChartCompiler
