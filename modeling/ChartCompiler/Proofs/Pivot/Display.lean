import ChartCompiler.Axis.Table
import ChartCompiler.Proofs.Pivot.Table

/-!
# Tables in display order

The categories of a table are put in order once it is finished.  Labels, first cells and all rows
of cells are reordered by one list of positions, so what stands at a position after that still
belongs to one category: every part of the table is an image of one list of categories, the
categories as they are shown (`TimedPivot.build_eq_shown`).
-/

set_option autoImplicit false

namespace ChartCompiler

/-! ## Picking by positions -/

section Pick

variable {β γ : Type}

theorem pick_map (order : List Nat) (change : β → γ) (items : List β) :
    pick order (items.map change) = (pick order items).map change := by
  rw [pick, pick, List.map_filterMap]
  exact List.filterMap_congr fun position _ => List.getElem?_map

theorem pick_range (items : List β) : pick (List.range items.length) items = items := by
  induction items using List.reverseRecOn with
  | nil => rfl
  | append_singleton items item ih =>
      have earlier : (List.range items.length).filterMap ((items ++ [item])[·]?) =
          (List.range items.length).filterMap (items[·]?) := by
        refine List.filterMap_congr fun position member => ?_
        exact List.getElem?_append_left (List.mem_range.mp member)
      rw [pick, List.length_append, List.length_singleton, List.range_succ, List.filterMap_append,
        earlier]
      refine congr (congrArg HAppend.hAppend ih) ?_
      simp

/-- Picking every position once rearranges the items. -/
theorem pick_perm {order : List Nat} {items : List β}
    (all : order.Perm (List.range items.length)) : (pick order items).Perm items := by
  have rearranged : (pick order items).Perm (pick (List.range items.length) items) :=
    all.filterMap _
  rwa [pick_range] at rearranged

theorem length_pick {order : List Nat} {items : List β}
    (inside : ∀ position ∈ order, position < items.length) :
    (pick order items).length = order.length := by
  induction order with
  | nil => rfl
  | cons position order ih =>
      rw [List.forall_mem_cons] at inside
      rw [pick, List.filterMap_cons_some (List.getElem?_eq_getElem inside.1), List.length_cons,
        List.length_cons]
      exact congrArg (· + 1) (ih inside.2)

/-- What is picked at a place is the item at the position that stands there. -/
theorem getElem?_pick {order : List Nat} {items : List β}
    (inside : ∀ position ∈ order, position < items.length) (place : Nat) :
    (pick order items)[place]? = (order[place]?).bind (items[·]?) := by
  induction order generalizing place with
  | nil => rfl
  | cons position order ih =>
      rw [List.forall_mem_cons] at inside
      rw [pick, List.filterMap_cons_some (List.getElem?_eq_getElem inside.1)]
      cases place with
      | zero => exact (List.getElem?_eq_getElem inside.1).symm
      | succ place => exact ih inside.2 place

/-- Picking in ascending order leaves items out. -/
theorem pick_sublist {order : List Nat} {items : List β}
    (ascending : order.Sublist (List.range items.length)) : (pick order items).Sublist items := by
  have part : (pick order items).Sublist (pick (List.range items.length) items) :=
    ascending.filterMap _
  rwa [pick_range] at part

theorem chronologicalOrder_perm (cells : List Json) :
    (chronologicalOrder cells).Perm (List.range cells.length) :=
  List.mergeSort_perm _ _

end Pick

/-! ## The categories as they are shown -/

section Shown

variable {α : Type} (entries : List (PivotEntry α))

/-- The categories in the order in which they first come up. -/
def categoriesOf : List String :=
  distinct (entries.map (·.category))

/-- The series in the order in which they first come up. -/
def seriesOf : List String :=
  distinct (entries.map (·.series))

/-- The cell that a category is first read from. -/
def cellOf (category : String) : Json :=
  (firstCell? entries category).getD .null

/-- The sampling of the categories. -/
def samplingOf : Sampling :=
  .ofCells ((categoriesOf entries).map (cellOf entries))

/-- The categories in display order. -/
def shownCategories : List String :=
  if (samplingOf entries).isTimeSeries then
    pick (chronologicalOrder ((categoriesOf entries).map (cellOf entries))) (categoriesOf entries)
  else categoriesOf entries

/-- The label of a category. -/
def labelOf (place : LabelPlace) (category : String) : String :=
  categoryLabel (cellOf entries category) category (samplingOf entries) place

theorem shownCategories_perm : (shownCategories entries).Perm (categoriesOf entries) := by
  rw [shownCategories]
  split
  · refine pick_perm ?_
    simpa using chronologicalOrder_perm ((categoriesOf entries).map (cellOf entries))
  · exact List.Perm.refl _

theorem nodup_shownCategories : (shownCategories entries).Nodup :=
  (shownCategories_perm entries).nodup_iff.mpr (nodup_distinct _)

theorem mem_shownCategories {category : String} :
    category ∈ shownCategories entries ↔ ∃ entry ∈ entries, entry.category = category := by
  rw [(shownCategories_perm entries).mem_iff, categoriesOf, mem_distinct, List.mem_map]

end Shown

variable {α : Type} [Quantity α]

/-- The value of a series at a category. -/
def valueAt (aggregation : Aggregation) (entries : List (PivotEntry α)) (series category : String) :
    Option α :=
  aggregation.ofValues (valuesAt entries series category)

namespace Pivot

/-- The table of some entries with its categories in an order. -/
def arranged (aggregation : Aggregation) (entries : List (PivotEntry α))
    (categories : List String) : Pivot α :=
  { categories
    categoryCells := categories.map (cellOf entries)
    series := seriesOf entries
    cells := (seriesOf entries).map fun series =>
      categories.map (valueAt aggregation entries series) }

theorem reorder_arranged (order : List Nat) (aggregation : Aggregation)
    (entries : List (PivotEntry α)) (categories : List String) :
    (arranged aggregation entries categories).reorder order =
      arranged aggregation entries (pick order categories) := by
  simp only [reorder, arranged, pick_map, List.map_map, Function.comp_def]

/-- A table that is not put in order has its categories in the order of first sight. -/
theorem build_eq_arranged (rows : List Record) (fields : PivotFields) (aggregation : Aggregation) :
    (build rows fields aggregation : Pivot α) =
      arranged aggregation (rows.filterMap fields.contribution?)
        (categoriesOf (rows.filterMap (fields.contribution? (α := α)))) :=
  finish_foldl_add _ _

end Pivot

namespace TimedPivot

/-- The table of some entries in display order. -/
def shown (aggregation : Aggregation) (entries : List (PivotEntry α)) : TimedPivot α :=
  { pivot := .arranged aggregation entries (shownCategories entries)
    time := samplingOf entries }

/-- **All parts of a table in display order are images of the categories as they are shown.** -/
theorem build_eq_shown (rows : List Record) (fields : PivotFields) (aggregation : Aggregation) :
    (build rows fields aggregation : TimedPivot α) =
      shown aggregation (rows.filterMap fields.contribution?) := by
  rw [build, Pivot.build_eq_arranged, shown, shownCategories]
  refine congrArg₂ TimedPivot.mk ?_ rfl
  show (if (samplingOf _).isTimeSeries then _ else _) = _
  split
  · exact Pivot.reorder_arranged _ _ _ _
  · rfl

theorem labels_shown (aggregation : Aggregation) (entries : List (PivotEntry α))
    (place : LabelPlace) :
    (shown aggregation entries).labels place =
      (shownCategories entries).map (labelOf entries place) := by
  simp only [labels, categoryLabels, shown, Pivot.arranged, List.zipWith_map_left,
    List.zipWith_self]
  rfl

end TimedPivot

end ChartCompiler
