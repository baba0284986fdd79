import ChartCompiler.Chart.Boxplot
import ChartCompiler.Chart.QuantileBands
import ChartCompiler.Proofs.Json.Members
import ChartCompiler.Proofs.Pivot.Display

/-!
# Summaries stand beside their categories

Box plots and quantile bands keep two lists while rows are read: the categories in the order of
first sight, and a summary for each of them.  A row either changes one summary or adds to both
lists, so the lists have one length, and a summary was read from a row of the category at its
position (`Summaries.valid_ofRows`).  At the end both lists are rearranged by one order, and all
that is emitted consists of images of the pairs.
-/

set_option autoImplicit false

namespace ChartCompiler

variable {α : Type} [Quantity α]

/-! ## The lists grow together -/

namespace Summaries

/-- A summary has been read from a row of the category beside it. -/
structure Valid (category : String) (fields : List String) (rows : List Record)
    (state : Summaries α) : Prop where
  /-- There is a summary for each category. -/
  length : state.summaries.length = state.register.entries.length
  /-- No two categories are the same. -/
  distinct : (state.register.entries.map (·.1)).Nodup
  /-- A summary belongs to the category at its position. -/
  read : ∀ (position : Nat) (name : String) (cell : Json) (numbers : FiveNumbers α),
    state.register.entries[position]? = some (name, cell) →
      state.summaries[position]? = some numbers → ∃ row ∈ rows,
        row.label? category = some name ∧ FiveNumbers.ofRow? fields row = some numbers

variable {category : String} {fields : List String} {rows : List Record} {state : Summaries α}

theorem valid_empty : Valid category fields [] (empty : Summaries α) where
  length := rfl
  distinct := List.nodup_nil
  read := by
    rintro position name cell numbers found -
    cases found

/-- More rows do no harm. -/
theorem Valid.append (valid : Valid category fields rows state) (row : Record) :
    Valid category fields (rows ++ [row]) state where
  length := valid.length
  distinct := valid.distinct
  read position name cell numbers atEntry atSummary := by
    obtain ⟨source, present, read⟩ := valid.read position name cell numbers atEntry atSummary
    exact ⟨source, List.mem_append_left _ present, read⟩

/-- A register knows a category or adds it at the end. -/
theorem insert_cases {register next : CategoryRegister} {cell : Json} {position : Nat}
    (inserted : register.insert cell = some (position, next)) :
    ∃ name, Cell.label cell = some name ∧
      ((next = register ∧ ∃ first, register.entries[position]? = some (name, first)) ∨
        (name ∉ register.entries.map (·.1) ∧ position = register.entries.length ∧
          next.entries = register.entries ++ [(name, cell)])) := by
  rw [CategoryRegister.insert] at inserted
  cases named : Cell.label cell with
  | none => simp [named] at inserted
  | some name =>
      refine ⟨name, rfl, ?_⟩
      simp only [named] at inserted
      cases known : register.entries.findIdx? (·.1 = name) with
      | some found =>
          simp only [known, Option.some.injEq, Prod.mk.injEq] at inserted
          obtain ⟨rfl, rfl⟩ := inserted
          obtain ⟨inside, same, -⟩ := List.findIdx?_eq_some_iff_getElem.mp known
          refine .inl ⟨rfl, register.entries[found].2, ?_⟩
          rw [List.getElem?_eq_getElem inside]
          exact congrArg some (Prod.ext (of_decide_eq_true same) rfl)
      | none =>
          simp only [known, Option.some.injEq, Prod.mk.injEq] at inserted
          obtain ⟨rfl, rfl⟩ := inserted
          refine .inr ⟨fun member => ?_, rfl, rfl⟩
          obtain ⟨entry, present, same⟩ := List.mem_map.mp member
          have differs := List.findIdx?_eq_none_iff.mp known entry present
          exact of_decide_eq_false differs same

/-- A row of a known category replaces its summary. -/
theorem Valid.replace (valid : Valid category fields rows state) {row : Record}
    {numbers : FiveNumbers α} {position : Nat} {name : String} {first : Json}
    (complete : FiveNumbers.ofRow? fields row = some numbers)
    (labelled : row.label? category = some name)
    (here : state.register.entries[position]? = some (name, first)) :
    Valid category fields (rows ++ [row])
      { register := state.register, summaries := state.summaries.set position numbers } where
  length := by rw [List.length_set, valid.length]
  distinct := valid.distinct
  read place other cell summary atEntry atSummary := by
    by_cases same : position = place
    · subst same
      obtain ⟨rfl, -⟩ := Prod.mk.inj (Option.some.inj (here.symm.trans atEntry))
      have inside : position < state.summaries.length :=
        valid.length ▸ (List.getElem?_eq_some_iff.mp here).1
      rw [List.getElem?_set_self inside] at atSummary
      obtain rfl := Option.some.inj atSummary
      exact ⟨row, List.mem_append_right _ (List.mem_singleton_self row), labelled, complete⟩
    · rw [List.getElem?_set_ne same] at atSummary
      exact (valid.append row).read place other cell summary atEntry atSummary

/-- A row of a new category adds the category and its summary. -/
theorem Valid.extend (valid : Valid category fields rows state) {row : Record}
    {numbers : FiveNumbers α} {name : String} {cell : Json} {next : CategoryRegister}
    (complete : FiveNumbers.ofRow? fields row = some numbers)
    (labelled : row.label? category = some name)
    (new : name ∉ state.register.entries.map (·.1))
    (grown : next.entries = state.register.entries ++ [(name, cell)]) :
    Valid category fields (rows ++ [row])
      { register := next, summaries := state.summaries ++ [numbers] } where
  length := by simp [grown, valid.length]
  distinct := by
    rw [grown, List.map_append, List.map_singleton]
    exact List.Nodup.append valid.distinct (List.nodup_singleton _)
      (List.disjoint_singleton.mpr new)
  read place other otherCell summary atEntry atSummary := by
    simp only [grown] at atEntry
    by_cases inside : place < state.register.entries.length
    · rw [List.getElem?_append_left inside] at atEntry
      rw [List.getElem?_append_left (valid.length ▸ inside)] at atSummary
      exact (valid.append row).read place other otherCell summary atEntry atSummary
    · have last : place = state.register.entries.length := by
        have bound := (List.getElem?_eq_some_iff.mp atEntry).1
        rw [List.length_append, List.length_singleton] at bound
        omega
      subst last
      rw [List.getElem?_concat_length] at atEntry
      rw [← valid.length, List.getElem?_concat_length] at atSummary
      cases atEntry
      cases atSummary
      exact ⟨row, List.mem_append_right _ (List.mem_singleton_self row), labelled, complete⟩

/-- One more row keeps the lists together. -/
theorem Valid.add (valid : Valid category fields rows state) (row : Record) :
    Valid category fields (rows ++ [row]) (state.add category fields row) := by
  rw [Summaries.add]
  cases complete : FiveNumbers.ofRow? (α := α) fields row with
  | none => exact valid.append row
  | some numbers =>
      cases found : (row.cell? category).bind state.register.insert with
      | none => exact valid.append row
      | some grown =>
          obtain ⟨position, next⟩ := grown
          obtain ⟨cell, atCategory, inserted⟩ := Option.bind_eq_some_iff.mp found
          obtain ⟨name, named, growth⟩ := insert_cases inserted
          have labelled : row.label? category = some name := by
            rw [Record.label?, atCategory, Option.bind_some, named]
          rcases growth with ⟨rfl, first, here⟩ | ⟨new, rfl, grown⟩
          · have inside := (List.getElem?_eq_some_iff.mp here).1
            simp only [valid.length, inside.ne, if_false]
            exact valid.replace complete labelled here
          · simp only [valid.length, if_true]
            exact valid.extend complete labelled new grown

/-- **After any rows there is a summary beside each category, read from a row of the category.** -/
theorem valid_ofRows (category : String) (fields : List String) (rows : List Record) :
    Valid category fields rows (ofRows category fields rows : Summaries α) := by
  induction rows using List.reverseRecOn with
  | nil => exact valid_empty
  | append_singleton rows row ih =>
      rw [ofRows, List.foldl_append]
      exact ih.add row

end Summaries

/-! ## What is shown -/

/-- A category with the cell it was first read from and its summary. -/
structure Box where
  name : String
  cell : Json
  numbers : FiveNumbers Float

namespace Box

/-- The label of the category of a box. -/
def label (time : Sampling) (place : LabelPlace) (box : Box) : String :=
  categoryLabel box.cell box.name time place

/-- Boxes stand for different categories, and each was read from a row of its category. -/
def ReadFrom (category : String) (fields : List String) (rows : List Record)
    (boxes : List Box) : Prop :=
  (boxes.map (·.name)).Nodup ∧ ∀ box ∈ boxes, ∃ row ∈ rows,
    row.label? category = some box.name ∧ FiveNumbers.ofRow? fields row = some box.numbers

/-- The boxes of some summaries. -/
def ofSummaries (state : Summaries Float) : List Box :=
  List.zipWith (fun (name, cell) numbers => { name, cell, numbers }) state.register.entries
    state.summaries

theorem readFrom_ofSummaries {category : String} {fields : List String} {rows : List Record}
    {state : Summaries Float} (valid : state.Valid category fields rows) :
    ReadFrom category fields rows (ofSummaries state) := by
  constructor
  · have names : (ofSummaries state).map (·.name) = state.register.entries.map (·.1) := by
      refine List.ext_getElem (by simp [ofSummaries, valid.length]) fun position here here' => ?_
      simp [ofSummaries]
    rw [names]
    exact valid.distinct
  · intro box member
    obtain ⟨position, here⟩ := List.mem_iff_getElem?.mp member
    obtain ⟨⟨name, cell⟩, numbers, atEntry, atSummary, rfl⟩ := List.getElem?_zipWith_eq_some.mp here
    exact valid.read position name cell numbers atEntry atSummary

end Box

/-- Axis, tooltips and summaries are rearranged by one order. -/
theorem Summaries.display_eq {category : String} {fields : List String} {rows : List Record}
    {state : Summaries Float} (valid : state.Valid category fields rows) :
    ∃ boxes time, Box.ReadFrom category fields rows boxes ∧
      state.register.display.labels = boxes.map (Box.label time .axis) ∧
      state.register.display.titles = boxes.map (Box.label time .tooltip) ∧
      pick state.register.display.order state.summaries = boxes.map (·.numbers) := by
  have entries : state.register.entries =
      (Box.ofSummaries state).map fun box => (box.name, box.cell) := by
    refine List.ext_getElem (by simp [Box.ofSummaries, valid.length]) fun position here here' => ?_
    simp [Box.ofSummaries]
  have summaries : state.summaries = (Box.ofSummaries state).map (·.numbers) := by
    refine List.ext_getElem (by simp [Box.ofSummaries, valid.length]) fun position here here' => ?_
    simp [Box.ofSummaries]
  have count : (Box.ofSummaries state).length = state.register.entries.length := by
    rw [entries, List.length_map]
  have order : (pick state.register.display.order (Box.ofSummaries state)).Perm
      (Box.ofSummaries state) := by
    refine pick_perm ?_
    rw [count, CategoryRegister.display, CategoryRegister.displayOrder]
    split
    · simpa using chronologicalOrder_perm (state.register.entries.map (·.2))
    · exact List.Perm.refl _
  have labels (time : Sampling) (place : LabelPlace) :
      (pick state.register.display.order state.register.entries).map (fun (name, cell) =>
        categoryLabel cell name time place) =
        (pick state.register.display.order (Box.ofSummaries state)).map (Box.label time place) := by
    rw [entries, pick_map, List.map_map]
    rfl
  refine ⟨pick state.register.display.order (Box.ofSummaries state),
    Sampling.ofCells (state.register.entries.map Prod.snd), ⟨?_, ?_⟩, labels _ .axis,
    labels _ .tooltip, ?_⟩
  · exact (order.map _).nodup_iff.mpr (Box.readFrom_ofSummaries valid).1
  · intro box member
    exact (Box.readFrom_ofSummaries valid).2 box (order.mem_iff.mp member)
  · conv_lhs => rw [summaries]
    exact pick_map _ _ _

/-- The arrays of an option are about some boxes, position by position. -/
structure BoxesAligned (option : Json) (boxes : List Box) (time : Sampling)
    (content : String → FiveNumbers Float → String) (points : List (FiveNumbers Float → Json)) :
    Prop where
  /-- The axis carries the labels of the categories. -/
  labels : option.at? ["xAxis", "data"] = some (.strings (boxes.map (Box.label time .axis)))
  /-- The tooltips carry the titles and the numbers of the categories. -/
  contents : option.at? ["tooltip", "axisContent"] =
    some (.strings (boxes.map fun box => content (box.label time .tooltip) box.numbers))
  /-- A series carries a point for each category. -/
  series : (option.itemsAt "series").map (·.member? "data") =
    points.map fun point => some (.array (boxes.map fun box => point box.numbers))

theorem Boxplot.aligned_option {data : Data Float} {config : Config} {dark : Bool} {option : Json}
    {boxes : List Box} {time : Sampling} (made : option? data config dark = some option)
    (labels : data.labels = boxes.map (Box.label time .axis))
    (titles : data.titles = boxes.map (Box.label time .tooltip))
    (numbers : data.boxes = boxes.map (·.numbers)) :
    ∃ writer color, BoxesAligned option boxes time (tooltip writer color)
      [fun numbers => .array (numbers.toList.map Json.ofFloat)] := by
  rw [option?] at made
  split at made
  · cases made
  · cases made
    refine ⟨.forMode (.ofConfig config) dark, config.accent dark, ?_, ?_, ?_⟩
    · simp [Json.at?, categoryAxis, labels]
    · simp [Json.at?, axisTooltip, titles, numbers, List.zipWith_map_left, List.zipWith_map_right]
    · simp [Json.itemsAt, Json.items?, numbers]

namespace QuantileBands

theorem length_names (config : Config) : (names config).length = 5 := by
  rw [names]
  split
  · assumption
  · rfl

theorem part_eq_map (position : Nat) {height : FiveNumbers α → α}
    (here : ∀ numbers, (heights numbers)[position]? = some (height numbers))
    (quantiles : List (FiveNumbers α)) : part position quantiles = quantiles.map height := by
  rw [part, ← List.filterMap_eq_map]
  exact List.filterMap_congr fun numbers _ => here numbers

/-- The points of the base, of the three bands and of the median. -/
def points : List (FiveNumbers Float → Json) :=
  [ fun numbers => .ofFloat numbers.lowest,
    fun numbers => .ofFloat (numbers.lower - numbers.lowest),
    fun numbers => .ofFloat (numbers.upper - numbers.lower),
    fun numbers => .ofFloat (numbers.highest - numbers.upper),
    fun numbers => .ofFloat numbers.middle ]

theorem aligned_option {data : Data Float} {config : Config} {dark : Bool} {option : Json}
    {boxes : List Box} {time : Sampling} (made : option? data config dark = some option)
    (labels : data.labels = boxes.map (Box.label time .axis))
    (titles : data.titles = boxes.map (Box.label time .tooltip))
    (numbers : data.quantiles = boxes.map (·.numbers)) :
    ∃ writer color, BoxesAligned option boxes time (tooltip writer color data.names) points := by
  rw [option?] at made
  split at made
  · cases made
  · cases made
    refine ⟨.forMode (.ofConfig config) dark, config.accent dark, ?_, ?_, ?_⟩
    · simp [around, Json.at?, categoryAxis, labels]
    · simp [around, Json.at?, axisTooltip, titles, numbers, List.zipWith_map_left,
        List.zipWith_map_right]
    · have base := part_eq_map 0 (fun _ => rfl) (boxes.map (·.numbers))
      have lower := part_eq_map 1 (fun _ => rfl) (boxes.map (·.numbers))
      have inner := part_eq_map 2 (fun _ => rfl) (boxes.map (·.numbers))
      have upper := part_eq_map 3 (fun _ => rfl) (boxes.map (·.numbers))
      simp [around, Json.itemsAt, Json.items?, stackMembers, band, Json.member?_set_of_ne, base,
        lower, inner, upper, numbers, points]

end QuantileBands

end ChartCompiler
