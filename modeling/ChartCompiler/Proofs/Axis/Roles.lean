import ChartCompiler.Axis.Fields
import ChartCompiler.Chart.Heatmap
import ChartCompiler.Proofs.Record.Bystander

/-!
# The roles of fields

A chart reads several fields, and one column should not play two roles.  The fields are found one
after the other: each takes the first candidate that any record carries, and a field that is taken
already is not passed over for the next candidate.

So the value of an axis chart can be a column that was configured as its category or its series
(`AxisFields.resolve_roles_iff`), and a heatmap can find no field for its rows although a candidate
is left (`Heatmap.takesBestRow_iff`).  Both statements say that this is the only way to go wrong.
-/

set_option autoImplicit false

namespace ChartCompiler

/-! ## Candidates -/

/-- The field that a name gives: its spelling in the first record that carries it. -/
def fieldNamed? (rows : List Record) (name : String) : Option String :=
  rows.findSome? fun record => record.spelling? name

section Candidates

variable {rows : List Record} {configured : Option String} {conventional : List String}
  {field : String}

theorem findField_eq (rows : List Record) (configured : Option String)
    (conventional : List String) :
    findField rows configured conventional =
      (Candidates.mk configured conventional).names.findSome? (fieldNamed? rows) := rfl

/-- Conventional names are tried when no record carries the configured one. -/
theorem findField_eq_or (rows : List Record) (configured : Option String)
    (conventional : List String) :
    findField rows configured conventional =
      (findField rows configured []).or (findField rows none conventional) := by
  have names : (Candidates.mk configured conventional).names =
      (Candidates.mk configured []).names ++ (Candidates.mk none conventional).names := by
    simp [Candidates.names, List.filter_append]
  rw [findField_eq, names, List.findSome?_append]
  rfl

theorem sameName_trans {first second third : String} (same : Text.sameName first second = true)
    (same' : Text.sameName first third = true) : Text.sameName second third = true := by
  simp only [Text.sameName, beq_iff_eq] at same same' ⊢
  exact same.symm.trans same'

/-- A field that conventional names give is spelled like one of them. -/
theorem exists_conventional (found : findField rows none conventional = some field) :
    ∃ name ∈ conventional, Text.sameName field name = true := by
  obtain ⟨name, listed, same⟩ := exists_name_of_findField found
  exact ⟨name, List.mem_of_mem_filter listed, same⟩

/-- No name is conventional for the category and for the value. -/
theorem categoryNames_apart_valueNames :
    ∀ name ∈ categoryNames, ∀ other ∈ valueNames, Text.sameName name other = false := by
  decide +kernel

/-- Conventional names never give one field for the category and for the value. -/
theorem conventional_apart (found : findField rows none categoryNames = some field) :
    findField rows none valueNames ≠ some field := by
  intro found'
  obtain ⟨name, listed, same⟩ := exists_conventional found
  obtain ⟨other, listed', same'⟩ := exists_conventional found'
  have apart := categoryNames_apart_valueNames name listed other listed'
  rw [sameName_trans same same'] at apart
  cases apart

end Candidates

/-! ## Axis charts -/

namespace AxisFields

variable {rows : List Record} {config : Config} {fields : AxisFields}

/-- The value is neither the category nor the series. -/
structure RolesApart (fields : AxisFields) : Prop where
  category : fields.value ≠ fields.category
  series : some fields.value ≠ fields.series

/-- The field that conventional names give for the value is configured for another role. -/
def ValueClaimed (rows : List Record) (config : Config) : Prop :=
  ∃ field, findField rows none valueNames = some field ∧
    (findField rows config.xField [] = some field ∨
      findField rows config.seriesField [] = some field)

theorem ne_of_numericField? {category field : String} {series : Option String} {row : Record}
    (found : numericField? category series row = some field) :
    field ≠ category ∧ some field ≠ series := by
  obtain ⟨member, chosen, rfl⟩ := Option.map_eq_some_iff.mp found
  have passed := List.find?_some chosen
  simp only [Bool.and_eq_true, decide_eq_true_eq] at passed
  exact passed.1

theorem of_resolve (resolved : resolve rows config = some fields) :
    findField rows config.xField categoryNames = some fields.category ∧
      fields.series = (findField rows config.seriesField []).filter (· ≠ fields.category) ∧
      (findField rows config.yField valueNames).or
        (rows.findSome? (numericField? fields.category fields.series)) = some fields.value := by
  obtain ⟨category, found, rest⟩ := Option.bind_eq_some_iff.mp resolved
  obtain ⟨value, found', same⟩ := Option.bind_eq_some_iff.mp rest
  cases same
  exact ⟨found, rfl, found'⟩

/-- **Without a configured value, a column plays two roles only when conventional names give the
value a field that is configured for the category or the series.** -/
theorem resolve_roles_iff (unset : config.yField = none)
    (resolved : resolve rows config = some fields) :
    fields.RolesApart ↔ ¬ ValueClaimed rows config := by
  obtain ⟨category, series, value⟩ := of_resolve resolved
  rw [unset] at value
  constructor
  · rintro apart ⟨field, conventional, configured⟩
    rw [conventional, Option.some_or] at value
    obtain rfl := Option.some.inj value
    rcases configured with asCategory | asSeries
    · rw [findField_eq_or, asCategory, Option.some_or] at category
      exact apart.category (Option.some.inj category)
    · -- The series is given up only where it is the category, which the value then is not.
      rw [asSeries, Option.filter_some, if_pos (decide_eq_true apart.category)] at series
      exact apart.series series.symm
  · intro unclaimed
    cases conventional : findField rows none valueNames with
    | none =>
        rw [conventional, Option.none_or] at value
        obtain ⟨row, -, numeric⟩ := List.exists_of_findSome?_eq_some value
        obtain ⟨apart, apart'⟩ := ne_of_numericField? numeric
        exact ⟨apart, apart'⟩
    | some field =>
        rw [conventional, Option.some_or] at value
        obtain rfl := Option.some.inj value
        refine ⟨fun same => ?_, fun same => ?_⟩
        · rw [findField_eq_or] at category
          rcases Option.or_eq_some_iff.mp category with configured | ⟨-, other⟩
          · exact unclaimed ⟨_, conventional, .inl (same ▸ configured)⟩
          · exact conventional_apart other (same ▸ conventional)
        · rw [← same] at series
          have asSeries := (Option.filter_eq_some_iff.mp series.symm).1
          exact unclaimed ⟨_, conventional, .inr asSeries⟩

/-- The total is configured for the series, and one record has a better name for the value. -/
def countedRecords : List Record :=
  [[("month", "Jan"), ("total", "north")], [("Count", 4), ("month", "Feb"), ("total", "south")]]

theorem resolve_roles_of_total :
    (({ seriesField := some "TOTAL" } : Config).yField = none ∧
      resolve countedRecords { seriesField := some "TOTAL" } =
        some { category := "month", value := "Count", series := some "total" }) ∧
      ¬ ValueClaimed countedRecords { seriesField := some "TOTAL" } ∧
      RolesApart { category := "month", value := "Count", series := some "total" } := by
  have resolved : resolve countedRecords { seriesField := some "TOTAL" } =
      some { category := "month", value := "Count", series := some "total" } := by
    decide +kernel
  have unclaimed : ¬ ValueClaimed countedRecords { seriesField := some "TOTAL" } := by
    rintro ⟨field, found, claimed⟩
    have value : findField countedRecords none valueNames = some "Count" := by decide +kernel
    obtain rfl := Option.some.inj (value.symm.trans found)
    revert claimed
    decide +kernel
  exact ⟨⟨rfl, resolved⟩, unclaimed, (resolve_roles_iff rfl resolved).mpr unclaimed⟩

/-- A count for the category, and what was counted. -/
def sharedCount : List Record :=
  [[("count", 1), ("share", 40)], [("count", 2), ("share", 60)]]

theorem value_is_category_of_count :
    ∃ fields, resolve sharedCount { xField := some "count" } = some fields ∧
      ¬ fields.RolesApart := by
  refine ⟨{ category := "count", value := "count", series := none }, by decide +kernel, ?_⟩
  exact fun apart => apart.category rfl

end AxisFields

/-! ## Heatmaps -/

namespace Heatmap

variable {rows : List Record} {config : Config} {column row value : String}

/-- The best candidate for the rows of a heatmap: it gives a field other than that of the columns,
and no candidate before it does. -/
def BestRow (rows : List Record) (config : Config) (column row : String) : Prop :=
  ∃ before name after,
    (Candidates.mk config.seriesField rowNames).names = before ++ name :: after ∧
      fieldNamed? rows name = some row ∧ row ≠ column ∧
      ∀ other ∈ before, ∀ field, fieldNamed? rows other = some field → field = column

/-- A heatmap has the best candidate for its rows, and has none only when there is none. -/
def TakesBestRow (rows : List Record) (config : Config) (column : String) : Prop :=
  ∀ row, (∃ fields, fields? rows config = some fields ∧ fields.series = some row) ↔
    BestRow rows config column row

theorem BestRow.unique {row' : String} (best : BestRow rows config column row)
    (best' : BestRow rows config column row') : row = row' := by
  have found {row : String} (best : BestRow rows config column row) :
      (Candidates.mk config.seriesField rowNames).names.findSome?
        (fun name => (fieldNamed? rows name).filter (· ≠ column)) = some row := by
    obtain ⟨before, name, after, parts, named, apart, passed⟩ := best
    refine List.findSome?_eq_some_iff.mpr ⟨before, name, after, parts, ?_, fun other here => ?_⟩
    · rw [named, Option.filter_some, if_pos (decide_eq_true apart)]
    · refine Option.filter_eq_none_iff.mpr fun field named' => ?_
      simpa using passed other here field named'
  exact Option.some.inj ((found best).symm.trans (found best'))

/-- The first field that candidates give is the best one, unless it is that of the columns. -/
theorem bestRow_of_findField (found : findField rows config.seriesField rowNames = some row)
    (apart : row ≠ column) : BestRow rows config column row := by
  obtain ⟨before, name, after, parts, named, absent⟩ := List.findSome?_eq_some_iff.mp found
  refine ⟨before, name, after, parts, named, apart, fun other here field named' => ?_⟩
  cases (absent other here).symm.trans named'

theorem exists_findField (best : BestRow rows config column row) :
    ∃ field, findField rows config.seriesField rowNames = some field := by
  obtain ⟨before, name, after, parts, named, -, -⟩ := best
  rw [findField_eq, parts, ← Option.isSome_iff_exists, List.findSome?_isSome_iff]
  exact ⟨name, by simp, Option.isSome_of_mem named⟩

/-- What a heatmap takes for its rows, when its columns and its values are known. -/
theorem fields?_eq (columns : findField rows config.xField categoryNames = some column)
    (values : findField rows (config.valueField.or config.yField) valueNames = some value) :
    fields? rows config =
      ((findField rows config.seriesField rowNames).filter (· ≠ column)).map fun row =>
        { category := column, value, series := some row } := by
  rw [fields?, columns, values, Option.map_eq_bind]
  rfl

theorem taken_iff (columns : findField rows config.xField categoryNames = some column)
    (values : findField rows (config.valueField.or config.yField) valueNames = some value) :
    (∃ fields, fields? rows config = some fields ∧ fields.series = some row) ↔
      findField rows config.seriesField rowNames = some row ∧ row ≠ column := by
  rw [fields?_eq columns values]
  constructor
  · rintro ⟨fields, taken, series⟩
    obtain ⟨field, chosen, rfl⟩ := Option.map_eq_some_iff.mp taken
    obtain rfl := Option.some.inj series
    simpa [Option.filter_eq_some_iff] using chosen
  · rintro ⟨found, apart⟩
    refine ⟨{ category := column, value, series := some row }, ?_, rfl⟩
    rw [found, Option.filter_some, if_pos (decide_eq_true apart), Option.map_some]

/-- A heatmap whose first candidate is the field of its columns shows nothing. -/
theorem ofRows_eq_none {α : Type} [Quantity α]
    (columns : findField rows config.xField categoryNames = some column)
    (values : findField rows (config.valueField.or config.yField) valueNames = some value)
    (first : findField rows config.seriesField rowNames = some column) :
    (ofRows rows config : Option (Data α)) = none := by
  have untaken : fields? rows config = none := by
    rw [fields?_eq columns values, first, Option.filter_some, if_neg (by simp), Option.map_none]
  rw [ofRows, untaken]
  rfl

/-- **A heatmap has the best field for its rows, unless the first candidate that any record carries
is the field of its columns and another one is left.**  Then it shows nothing. -/
theorem takesBestRow_iff (columns : findField rows config.xField categoryNames = some column)
    (values : findField rows (config.valueField.or config.yField) valueNames = some value) :
    (TakesBestRow rows config column ↔
      ¬ (findField rows config.seriesField rowNames = some column ∧
        ∃ row, BestRow rows config column row)) ∧
    (findField rows config.seriesField rowNames = some column →
      (ofRows rows config : Option (Data Float)) = none) := by
  refine ⟨⟨?_, ?_⟩, ofRows_eq_none columns values⟩
  · rintro takes ⟨first, row, best⟩
    obtain ⟨taken, apart⟩ := (taken_iff columns values).mp ((takes row).mpr best)
    exact apart (Option.some.inj (taken.symm.trans first))
  · intro passed row
    rw [taken_iff columns values]
    constructor
    · rintro ⟨found, apart⟩
      exact bestRow_of_findField found apart
    · intro best
      obtain ⟨field, found⟩ := exists_findField best
      have apart : field ≠ column := by
        rintro rfl
        exact passed ⟨found, row, best⟩
      obtain rfl := best.unique (bestRow_of_findField found apart)
      exact ⟨found, apart⟩

/-- Values by weekday and hour. -/
def hourlyRecords : List Record :=
  [[("hour", "09"), ("value", 3), ("weekday", "Mon")],
    [("hour", "10"), ("value", 5), ("weekday", "Tue")]]

/-- Hours across, weekdays down. -/
theorem takesBestRow_of_hours :
    (findField hourlyRecords (some "hour") categoryNames = some "hour" ∧
      findField hourlyRecords none valueNames = some "value") ∧
      TakesBestRow hourlyRecords { xField := some "hour" } "hour" ∧
      BestRow hourlyRecords { xField := some "hour" } "hour" "weekday" := by
  have columns : findField hourlyRecords (some "hour") categoryNames = some "hour" := by
    decide +kernel
  have values : findField hourlyRecords none valueNames = some "value" := by decide +kernel
  have found : findField hourlyRecords none rowNames = some "weekday" := by decide +kernel
  refine ⟨⟨columns, values⟩, ?_, bestRow_of_findField found (by decide)⟩
  refine (@takesBestRow_iff _ { xField := some "hour" } _ _ columns values).1.mpr ?_
  rintro ⟨first, -⟩
  exact absurd (found.symm.trans first) (by decide)

/-- Weekdays across leave the hours, which are not taken. -/
theorem no_rows_of_weekdays :
    (findField hourlyRecords (some "weekday") categoryNames = some "weekday" ∧
      findField hourlyRecords none valueNames = some "value") ∧
      BestRow hourlyRecords { xField := some "weekday" } "weekday" "hour" ∧
      ¬ TakesBestRow hourlyRecords { xField := some "weekday" } "weekday" ∧
      (ofRows hourlyRecords { xField := some "weekday" } : Option (Data Float)) = none := by
  have best : BestRow hourlyRecords { xField := some "weekday" } "weekday" "hour" := by
    have passed : ∀ other ∈ ["series", "group", "weekday"],
        fieldNamed? hourlyRecords other = none ∨
          fieldNamed? hourlyRecords other = some "weekday" := by
      decide +kernel
    refine ⟨["series", "group", "weekday"], "hour", ["row"], rfl, by decide +kernel, by decide, ?_⟩
    intro other earlier field named
    rcases passed other earlier with absent | columns
    · cases absent.symm.trans named
    · exact Option.some.inj (named.symm.trans columns)
  have columns : findField hourlyRecords (some "weekday") categoryNames = some "weekday" := by
    decide +kernel
  have values : findField hourlyRecords none valueNames = some "value" := by decide +kernel
  have first : findField hourlyRecords none rowNames = some "weekday" := by decide +kernel
  refine ⟨⟨columns, values⟩, best, fun takes => ?_,
    @ofRows_eq_none _ { xField := some "weekday" } _ _ _ _ columns values first⟩
  obtain ⟨fields, taken, -⟩ := (takes "hour").mpr best
  have untaken : fields? hourlyRecords { xField := some "weekday" } = none := by decide +kernel
  cases untaken.symm.trans taken

end Heatmap

end ChartCompiler
