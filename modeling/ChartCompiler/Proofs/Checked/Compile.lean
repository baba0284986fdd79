import ChartCompiler.Compile
import ChartCompiler.Proofs.Checked.Axis
import ChartCompiler.Proofs.Checked.Heatmap
import ChartCompiler.Proofs.Checked.Network
import ChartCompiler.Proofs.Checked.Sankey
import ChartCompiler.Proofs.Checked.Summaries
import ChartCompiler.Proofs.Checked.Sums
import ChartCompiler.Proofs.Checked.Sunburst
import ChartCompiler.Proofs.Number.Magnitude
import ChartCompiler.Proofs.Time.Calendar

/-!
# Compiling with checks

Every kind of chart is made from records and drawn without a fault, and so is the chart that a key,
rows and a configuration stand for.  Only one check depends on the configuration: curvatures are
clamped to a range around zero that is given, and it is a range because the numbers of a
configuration are finite.

Pies and box plots are drawn without reading anything by position, so only what they are drawn from
is checked.
-/

set_option autoImplicit false

namespace ChartCompiler

/-! ## Finite configurations -/

namespace Json

mutual

/-- Whether all numbers of a value are finite. -/
def isFinite : Json → Bool
  | integer value => (Float.ofInt value).isFinite
  | float value => value.isFinite
  | array items => areFinite items
  | object members => haveFinite members
  | _ => true

/-- Whether all numbers of some values are finite. -/
def areFinite : List Json → Bool
  | [] => true
  | item :: rest => item.isFinite && areFinite rest

/-- Whether all numbers of some members are finite. -/
def haveFinite : List (String × Json) → Bool
  | [] => true
  | (_, value) :: rest => value.isFinite && haveFinite rest

end

theorem isFinite_of_mem {members : Members} (finite : haveFinite members = true) :
    ∀ member ∈ members, member.2.isFinite = true := by
  induction members with
  | nil => exact fun _ => nofun
  | cons member rest ih =>
      rw [haveFinite, Bool.and_eq_true] at finite
      exact List.forall_mem_cons.mpr ⟨finite.1, ih finite.2⟩

theorem isFinite_number {value : Json} (finite : value.isFinite = true) {number : Float}
    (read : value.number? = some number) : number.isFinite = true := by
  cases value with
  | integer => exact Option.some.inj read ▸ finite
  | float => exact Option.some.inj read ▸ finite
  | _ => cases read

end Json

/-- A configuration whose greatest curvature is finite. -/
def Config.IsBounded (config : Config) : Prop :=
  config.network.maxCurvature.isFinite = true

namespace Rule

/-- A rule keeps configurations bounded when it reads a finite value. -/
def KeepsBounded (rule : Rule) : Prop :=
  ∀ value store config, value.isFinite = true → rule.read value = some store →
    config.IsBounded → (store config).IsBounded

/-- A rule for anything but the greatest curvature leaves it alone. -/
theorem keepsBounded_of {τ : Type} {key : String} {kind : Json → Option τ}
    {store : τ → Config → Config}
    (alone : ∀ value config, (store value config).network.maxCurvature =
      config.network.maxCurvature) : (of key kind store).KeepsBounded := by
  intro value stored config _ read bounded
  obtain ⟨found, -, rfl⟩ := Option.map_eq_some_iff.mp read
  exact (congrArg Float.isFinite (alone found config)).trans bounded

/-- The greatest curvature that is read is finite. -/
theorem keepsBounded_number {key : String} {store : Float → Config → Config}
    (stored : ∀ value config, (store value config).network.maxCurvature = value) :
    (of key Setting.number store).KeepsBounded := by
  intro value _ config finite read _
  obtain ⟨number, found, rfl⟩ := Option.map_eq_some_iff.mp read
  exact (congrArg Float.isFinite (stored number config)).trans (Json.isFinite_number finite found)

theorem keepsBounded_shared : ∀ rule ∈ shared, rule.KeepsBounded := by
  rw [shared]
  repeat refine List.forall_mem_cons.mpr ⟨keepsBounded_of fun _ _ => rfl, ?_⟩
  exact fun _ => nofun

theorem keepsBounded_networkRules : ∀ rule ∈ networkRules, rule.KeepsBounded := by
  rw [networkRules]
  repeat
    first
    | refine List.forall_mem_cons.mpr ⟨keepsBounded_of fun _ _ => rfl, ?_⟩
    | refine List.forall_mem_cons.mpr ⟨keepsBounded_number fun _ _ => rfl, ?_⟩
  exact fun _ => nofun

theorem keepsBounded_chartRules : ∀ rule ∈ chartRules, rule.KeepsBounded := by
  rw [chartRules]
  repeat refine List.forall_mem_cons.mpr ⟨keepsBounded_of fun _ _ => rfl, ?_⟩
  exact fun _ => nofun

theorem keepsBounded_all : ∀ rule ∈ all, rule.KeepsBounded := by
  intro rule member
  rcases List.mem_append.mp member with member | member
  · rcases List.mem_append.mp member with member | member
    · exact keepsBounded_shared rule member
    · exact keepsBounded_networkRules rule member
  · exact keepsBounded_chartRules rule member

end Rule

namespace Config

theorem isBounded_default : ({} : Config).IsBounded := by
  rw [IsBounded]
  decide

theorem isBounded_readMember? {config result : Config} {member : String × Json}
    (finite : member.2.isFinite = true) (bounded : config.IsBounded)
    (read : readMember? config member = some result) : result.IsBounded := by
  rw [readMember?] at read
  split at read
  · next rule found =>
      obtain ⟨store, stored, rfl⟩ := Option.map_eq_some_iff.mp read
      exact Rule.keepsBounded_all rule (List.mem_of_find?_eq_some found) _ _ _ finite stored bounded
  · exact Option.some.inj read ▸ bounded

theorem isBounded_foldlM {members : Members} {config result : Config}
    (finite : ∀ member ∈ members, member.2.isFinite = true) (bounded : config.IsBounded)
    (read : members.foldlM readMember? config = some result) : result.IsBounded := by
  induction members generalizing config with
  | nil => exact Option.some.inj read ▸ bounded
  | cons member rest ih =>
      rw [List.foldlM_cons] at read
      obtain ⟨next, first, later⟩ := Option.bind_eq_some_iff.mp read
      obtain ⟨now, finite⟩ := List.forall_mem_cons.mp finite
      exact ih finite (isBounded_readMember? now bounded first) later

/-- What is read from finite values is bounded, whether all members can be read or not. -/
theorem isBounded_ofJson {config : Json} (finite : config.isFinite = true) :
    (ofJson config).IsBounded := by
  cases config with
  | object members =>
      have finite := Json.isFinite_of_mem finite
      rw [ofJson]
      split
      · next whole => exact isBounded_foldlM finite isBounded_default whole
      · cases rest : read? (members.filter isReadable) with
        | none => exact isBounded_default
        | some result =>
            exact isBounded_foldlM (fun member kept => finite member (List.mem_of_mem_filter kept))
              isBounded_default rest
  | _ => exact isBounded_default

end Config

theorem Network.bounded_of {config : Config} (bounded : config.IsBounded) :
    Network.Bounded config.network :=
  neg_abs_le_abs bounded

/-! ## Kinds of charts -/

/-- The chart of a table, drawn by one of the kinds that have axes. -/
def AxisTable.chartChecked (option : AxisTable Float → Config → Bool → Checked Json)
    (rows : List Record) (config : Config) (dark : Bool) : Checked (Option CompiledChart) := do
  match ← AxisTable.ofRowsChecked rows config with
  | none => return none
  | some data => return some (.ofOption (← option data config dark))

theorem AxisTable.chartChecked_eq {checked : AxisTable Float → Config → Bool → Checked Json}
    {option : AxisTable Float → Config → Bool → Json} {rows : List Record} {config : Config}
    {dark : Bool}
    (drawn : ∀ data : AxisTable Float, data.Dense →
      checked data config dark = pure (option data config dark)) :
    AxisTable.chartChecked checked rows config dark =
      pure ((AxisTable.ofRows rows config).map fun data =>
        CompiledChart.ofOption (option data config dark)) := by
  rw [chartChecked, ofRowsChecked_eq, pure_bind]
  cases found : (AxisTable.ofRows rows config : Option (AxisTable Float)) with
  | none => rfl
  | some data =>
      simp only [drawn data (dense_ofRows found), pure_bind]
      rfl

namespace ChartKind

def chartChecked (kind : ChartKind) (rows : List Record) (config : Config) (dark : Bool) :
    Checked (Option CompiledChart) :=
  match kind with
  | bar => AxisTable.chartChecked Bar.optionChecked rows config dark
  | line => AxisTable.chartChecked (Line.optionChecked false) rows config dark
  | area => AxisTable.chartChecked (Line.optionChecked true) rows config dark
  | radar => AxisTable.chartChecked Radar.optionChecked rows config dark
  | pie => do
    let data ← Pie.ofRowsChecked rows config
    return (Pie.option? data config dark).map .ofOption
  | boxplot => do
    let data ← Boxplot.ofRowsChecked rows config
    return (Boxplot.option? data config dark).map .ofOption
  | heatmap => do
    match ← Heatmap.ofRowsChecked rows config with
    | none => return none
    | some data => return some (.ofOption (← Heatmap.optionChecked data config dark))
  | sankey => do
    let data ← Sankey.ofRowsChecked rows config
    return (← Sankey.optionChecked data config dark).map .ofOption
  | sunburst => do
    let data ← Sunburst.ofRowsChecked rows config
    return (← Sunburst.optionChecked data config dark).map .ofOption
  | wordCloud => do
    let data ← WordCloud.ofRowsChecked rows config
    return (← WordCloud.optionChecked data config dark).map .ofOption
  | quantileBands => do
    let data ← QuantileBands.ofRowsChecked rows config
    return (← QuantileBands.optionChecked data config dark).map .ofOption
  | network => do
    let graph ← Network.Graph.ofRowsChecked rows config
    Network.chartChecked graph config dark

theorem chartChecked_eq (kind : ChartKind) (rows : List Record) {config : Config}
    (bounded : config.IsBounded) (dark : Bool) :
    kind.chartChecked rows config dark = pure (kind.chart? rows config dark) := by
  cases kind with
  | bar => exact AxisTable.chartChecked_eq fun _ dense => Bar.optionChecked_eq dense config dark
  | line =>
      exact AxisTable.chartChecked_eq fun _ dense => Line.optionChecked_eq dense false config dark
  | area =>
      exact AxisTable.chartChecked_eq fun _ dense => Line.optionChecked_eq dense true config dark
  | radar => exact AxisTable.chartChecked_eq fun _ dense => Radar.optionChecked_eq dense config dark
  | pie =>
      rw [chartChecked, Pie.ofRowsChecked_eq, pure_bind]
      rfl
  | boxplot =>
      rw [chartChecked, Boxplot.ofRowsChecked_eq, pure_bind]
      rfl
  | heatmap =>
      rw [chartChecked, Heatmap.ofRowsChecked_eq, pure_bind, chart?]
      cases found : (Heatmap.ofRows rows config : Option (Heatmap.Data Float)) with
      | none => rfl
      | some data =>
          simp only [Heatmap.optionChecked_eq (Heatmap.dense_ofRows found), pure_bind]
          rfl
  | sankey =>
      rw [chartChecked, Sankey.ofRowsChecked_eq, pure_bind,
        Sankey.optionChecked_eq (Sankey.closed_ofRows rows config), pure_bind]
      rfl
  | sunburst =>
      rw [chartChecked, Sunburst.ofRowsChecked_eq, pure_bind,
        Sunburst.optionChecked_eq (Sunburst.linked_ofRows rows config), pure_bind]
      rfl
  | wordCloud =>
      rw [chartChecked, WordCloud.ofRowsChecked_eq, pure_bind, WordCloud.optionChecked_eq,
        pure_bind]
      rfl
  | quantileBands =>
      rw [chartChecked, QuantileBands.ofRowsChecked_eq, pure_bind,
        QuantileBands.optionChecked_eq (QuantileBands.named_ofRows rows config), pure_bind]
      rfl
  | network =>
      rw [chartChecked, Network.Graph.ofRowsChecked_eq, pure_bind]
      exact Network.chartChecked_eq (Network.bounded_of bounded) rows dark

def compileChecked (kind : ChartKind) (rows : Json) (config : Config) (dark : Bool) :
    Checked CompiledChart :=
  match records rows with
  | .error _ => pure (.empty dark)
  | .ok rows => do
    match ← kind.chartChecked rows config dark with
    | none => return .empty dark
    | some chart =>
      match config.overrides with
      | none => return chart
      | some overrides => return { chart with option := Json.overlay chart.option overrides }

theorem compileChecked_eq (kind : ChartKind) (rows : Json) {config : Config}
    (bounded : config.IsBounded) (dark : Bool) :
    kind.compileChecked rows config dark = pure (kind.compile rows config dark) := by
  rw [compileChecked, compile]
  cases records rows with
  | error _ => rfl
  | ok given =>
      simp only [chartChecked_eq kind given bounded, pure_bind]
      cases kind.chart? given config dark with
      | none => rfl
      | some chart => cases config.overrides <;> rfl

end ChartKind

/-! ## Compiled charts -/

def compileChecked (key : String) (rows config : Json) (dark : Bool) : Checked CompiledChart :=
  match ChartKind.ofKey? key with
  | none => pure (.empty dark)
  | some kind => kind.compileChecked rows (Config.ofJson config) dark

/-- **A chart is compiled without a fault**, and its checks change nothing; nor is there a fault in
grouping digits, in choosing a unit or in naming the month of an instant. -/
theorem compile_reaches_no_fault (key : String) (rows config : Json) (dark : Bool)
    (finite : config.isFinite = true) :
    compileChecked key rows config dark = .ok (compileChart key rows config dark) ∧
      (∀ digits, groupDigitsChecked digits = .ok (groupDigits digits)) ∧
      (∀ magnitude : Float, Compact.ofChecked magnitude = .ok (Compact.of magnitude)) ∧
      ∀ instant : Instant,
        monthNameChecked instant.date.month = .ok (monthName instant.date.month) := by
  refine ⟨?_, groupDigitsChecked_eq, Compact.ofChecked_eq, fun instant => ?_⟩
  · rw [compileChecked, compileChart]
    cases ChartKind.ofKey? key with
    | none => rfl
    | some kind => exact kind.compileChecked_eq rows (Config.isBounded_ofJson finite) dark
  · obtain ⟨first, last⟩ := Date.month_ofDays _
    exact monthNameChecked_eq first last

/-- Two nodes with an edge each way. -/
def returningRows : Json :=
  .array
    [ .record [("source", "a"), ("target", "b"), ("value", 5)],
      .record [("source", "b"), ("target", "a"), ("value", 7)] ]

/-- Edges are hardly bent. -/
def straightenedConfig : Json :=
  .record [("maxCurvature", .float 0.05), ("curveSeparation", 1)]

/-- The curvatures of both edges are clamped. -/
theorem compile_reaches_no_fault_of_returning :
    straightenedConfig.isFinite = true ∧
      compileChecked "network" returningRows straightenedConfig false =
        .ok (compileChart "network" returningRows straightenedConfig false) := by
  have finite : straightenedConfig.isFinite = true := by decide +kernel
  have compiled := compile_reaches_no_fault "network" returningRows straightenedConfig false finite
  exact ⟨finite, compiled.1⟩

end ChartCompiler
