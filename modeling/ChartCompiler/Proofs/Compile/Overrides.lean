import ChartCompiler.Compile
import ChartCompiler.Proofs.Config.Reading
import ChartCompiler.Proofs.Json.Overlay

/-!
# What overrides leave of a chart

Overrides are laid over the option of a chart at the end.  Every kind of chart is drawn as an
object, and so is the chart without data.  Overrides that are an object keep the keys of the option.
Any other value replaces the option as a whole, as it would replace any part of it, so the compiled
option is then no object any more (`compiled_keeps_keys_iff`).  Nothing is laid over the chart
without data.
-/

set_option autoImplicit false

namespace ChartCompiler

namespace ChartKind

variable {kind : ChartKind} {rows : List Record} {config : Config} {dark : Bool}
  {chart : CompiledChart}

/-- Every kind of chart is drawn as an object. -/
theorem isObject_of_chart? (found : kind.chart? rows config dark = some chart) :
    chart.option.IsObject := by
  cases kind with
  | bar | line | area | radar | heatmap =>
      obtain ⟨data, -, rfl⟩ := Option.map_eq_some_iff.mp found
      exact ⟨_, rfl⟩
  | pie | boxplot | sankey | sunburst | quantileBands =>
      obtain ⟨option, made, rfl⟩ := Option.map_eq_some_iff.mp found
      obtain rfl := Option.some.inj (Option.ite_none_left_eq_some.mp made).2
      exact ⟨_, rfl⟩
  | wordCloud =>
      obtain ⟨option, made, rfl⟩ := Option.map_eq_some_iff.mp found
      rw [WordCloud.option?] at made
      split at made
      · cases made
        exact ⟨_, rfl⟩
      · cases made
  | network =>
      obtain rfl := Option.some.inj (Option.ite_none_left_eq_some.mp found).2
      exact ⟨_, rfl⟩

end ChartKind

/-- The chart that is drawn before anything is laid over it, if there is anything to draw. -/
def drawn? (key : String) (rows config : Json) (dark : Bool) : Option CompiledChart :=
  (ChartKind.ofKey? key).bind fun kind =>
    (records rows).toOption.bind fun rows => kind.chart? rows (Config.ofJson config) dark

/-- The chart before anything is laid over it. -/
def emitted (key : String) (rows config : Json) (dark : Bool) : CompiledChart :=
  (drawn? key rows config dark).getD (.empty dark)

/-- What a configuration lays over a chart: what stands under its key, unless that is missing or
`null`. -/
def overridesOf? (config : Json) : Option Json :=
  match config.member? "overrides" with
  | some .null => none
  | given => given

section Compile

variable {key : String} {rows config : Json} {dark : Bool}

theorem compileChart_of_drawn?_eq_none (nothing : drawn? key rows config dark = none) :
    compileChart key rows config dark = .empty dark := by
  rw [drawn?] at nothing
  rw [compileChart]
  cases named : ChartKind.ofKey? key with
  | none => rfl
  | some kind =>
      rw [named, Option.bind_some] at nothing
      simp only [ChartKind.compile]
      cases accepted : records rows with
      | error message => rfl
      | ok given =>
          rw [accepted] at nothing
          have undrawn : kind.chart? given (Config.ofJson config) dark = none := nothing
          simp only [undrawn]

theorem compileChart_of_drawn?_eq_some {chart : CompiledChart}
    (found : drawn? key rows config dark = some chart) :
    chart.option.IsObject ∧ compileChart key rows config dark =
      match (Config.ofJson config).overrides with
      | none => chart
      | some overrides => { chart with option := Json.overlay chart.option overrides } := by
  obtain ⟨kind, named, found⟩ := Option.bind_eq_some_iff.mp found
  obtain ⟨given, accepted, found⟩ := Option.bind_eq_some_iff.mp found
  cases read : records rows with
  | error message =>
      rw [read] at accepted
      cases accepted
  | ok records =>
      rw [read] at accepted
      cases accepted
      refine ⟨ChartKind.isObject_of_chart? found, ?_⟩
      cases laid : (Config.ofJson config).overrides <;>
        simp only [compileChart, named, ChartKind.compile, read, found, laid]

end Compile

/-- The overrides are read as they are given. -/
theorem overrides_ofJson {config : Json}
    (distinct : ∀ members, config.members? = some members → members.keys.Nodup) :
    (Config.ofJson config).overrides = overridesOf? config := by
  cases config with
  | object members =>
      have under : overridesOf? (.object members) =
          match Members.find? "overrides" members with
          | some .null => none
          | given => given := rfl
      have part : (Config.ofJson (.object members)).overrides =
          (Config.alone members "overrides").overrides := by
        rw [(Config.ofJson_eq (distinct members rfl)).2]
        rfl
      rw [under, part, Config.alone]
      cases Members.find? "overrides" members with
      | none => rfl
      | some value =>
          have effect : Config.effect? ("overrides", value) =
              (Setting.optional some value).map fun given config =>
                { config with overrides := given } := by rfl
          rw [Option.bind_some, Config.read?_singleton, effect]
          cases value <;> rfl
  | _ => rfl

/-- **A compiled option keeps the keys of the chart exactly when nothing is drawn or the overrides
are an object.  Other overrides take the place of the option.** -/
theorem compiled_keeps_keys_iff (key : String) (rows : Json) {config : Json} (dark : Bool)
    (distinct : ∀ members, config.members? = some members → members.keys.Nodup) :
    ((emitted key rows config dark).option.KeepsKeys (compileChart key rows config dark).option ↔
      drawn? key rows config dark = none ∨
        ∀ overrides, overridesOf? config = some overrides → overrides.IsObject) ∧
    ∀ chart overrides, drawn? key rows config dark = some chart →
      overridesOf? config = some overrides → ¬ overrides.IsObject →
        (compileChart key rows config dark).option = overrides := by
  cases found : drawn? key rows config dark with
  | none =>
      rw [compileChart_of_drawn?_eq_none found, emitted, found, Option.getD_none]
      exact ⟨iff_of_true (.refl ⟨_, rfl⟩) (.inl rfl), fun _ _ => nofun⟩
  | some chart =>
      obtain ⟨isObject, compiled⟩ := compileChart_of_drawn?_eq_some found
      rw [emitted, found, Option.getD_some]
      rw [overrides_ofJson distinct] at compiled
      cases laid : overridesOf? config with
      | none =>
          rw [laid] at compiled
          rw [compiled]
          exact ⟨iff_of_true (.refl isObject) (.inr fun _ => nofun), fun _ _ _ => nofun⟩
      | some overrides =>
          rw [laid] at compiled
          rw [compiled]
          refine ⟨(Json.keepsKeys_overlay_iff isObject).trans ?_, ?_⟩
          · simp
          · rintro _ _ - same plain
            obtain rfl := Option.some.inj same
            exact Json.overlay_of_not_isObject plain

/-- One bar. -/
def barRows : Json :=
  .array [.record [("category", "a"), ("value", 1)]]

/-- A chart without its left margin. -/
def marginConfig : Json :=
  .record [("overrides", .record [("grid", .record [("left", 0)])])]

/-- A number in place of overrides. -/
def numberConfig : Json :=
  .record [("overrides", 5)]

/-- The margin keeps the keys of the chart, and the number takes its place. -/
theorem compiled_keeps_keys_of_margin :
    (emitted "bar" barRows marginConfig false).option.KeepsKeys
        (compileChart "bar" barRows marginConfig false).option ∧
      (compileChart "bar" barRows numberConfig false).option = 5 := by
  have alone (value : Json) : ∀ members,
      (Json.record [("overrides", value)]).members? = some members → members.keys.Nodup := by
    rintro members same
    obtain rfl := Option.some.inj same
    exact List.nodup_singleton _
  obtain ⟨chart, found⟩ : ∃ chart, drawn? "bar" barRows numberConfig false = some chart :=
    ⟨_, rfl⟩
  constructor
  · refine ((compiled_keeps_keys_iff "bar" barRows false (alone _)).1).mpr (.inr ?_)
    intro overrides given
    obtain rfl := Option.some.inj (given.symm.trans rfl)
    exact ⟨_, rfl⟩
  · exact (compiled_keeps_keys_iff "bar" barRows false (alone _)).2 chart 5 found rfl nofun

/-- The number is no chart any more. -/
theorem keys_lost_to_number :
    ¬ (emitted "bar" barRows numberConfig false).option.KeepsKeys
      (compileChart "bar" barRows numberConfig false).option := by
  have replaced : (compileChart "bar" barRows numberConfig false).option = 5 := by rfl
  rw [replaced]
  rintro ⟨_, _, -, kept, -⟩
  cases kept

end ChartCompiler
