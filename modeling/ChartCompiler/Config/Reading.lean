import ChartCompiler.Config.Basic

/-!
# Reading configurations

A configuration is read from an object.  A table of rules says for each key what kind of value it
takes and where that value goes; keys without a rule are ignored.  When every value has the kind
that its key asks for, the object is read as a whole.  Otherwise each member is tried on its own,
those that cannot be read are left out with a notice, and the rest is read as a whole.
-/

set_option autoImplicit false

namespace ChartCompiler

/-! ## Kinds of values -/

namespace Setting

/-- A text. -/
def text : Json → Option String := Json.string?

/-- A truth value. -/
def flag : Json → Option Bool := Json.bool?

/-- A number of any kind. -/
def number : Json → Option Float := Json.number?

/-- A whole number from zero up to a bound, which is excluded. -/
def naturalBelow (bound : Nat) : Json → Option Nat
  | .integer value => if 0 ≤ value ∧ value < bound then some value.toNat else none
  | _ => none

/-- A count. -/
def count : Json → Option Nat := naturalBelow (twoTo 64)

/-- A list of texts. -/
def texts : Json → Option (List String)
  | .array items => items.mapM text
  | _ => none

/-- A value that may be missing. -/
def optional {τ : Type} (kind : Json → Option τ) : Json → Option (Option τ)
  | .null => some none
  | value => (kind value).map some

/-- An aggregation: its key, or an object with the key as its only member and nothing in it. -/
def aggregation : Json → Option Aggregation
  | .string key => Aggregation.ofKey? key
  | .object [(key, .null)] => Aggregation.ofKey? key
  | _ => none

/-- A member of a palette; a missing member is an empty list. -/
def paletteMember (key : String) (members : Members) : Option (List String) :=
  match Members.find? key members with
  | some value => texts value
  | none => some []

/-- A palette: an object with a list for each theme, or up to two lists in order. -/
def palette : Json → Option ThemePalette
  | .object members => do
    let light ← paletteMember "light" members
    let dark ← paletteMember "dark" members
    return { light, dark }
  | .array [] => some {}
  | .array [light] => do return { light := ← texts light }
  | .array [light, dark] => do return { light := ← texts light, dark := ← texts dark }
  | _ => none

end Setting

/-! ## Rules -/

/-- How one key of a configuration is read. -/
structure Rule where
  /-- The key. -/
  key : String
  /-- What a value under the key does to a configuration, if it has the right kind. -/
  read : Json → Option (Config → Config)

namespace Rule

/-- The rule that reads a kind of value and stores it. -/
def of {τ : Type} (key : String) (kind : Json → Option τ) (store : τ → Config → Config) : Rule :=
  { key, read := fun value => (kind value).map store }

/-- A rule for a network option. -/
def network {τ : Type} (key : String) (kind : Json → Option τ)
    (store : τ → NetworkOptions → NetworkOptions) : Rule :=
  of key kind fun value config => { config with network := store value config.network }

/-- A rule for a heatmap option. -/
def heatmap {τ : Type} (key : String) (kind : Json → Option τ)
    (store : τ → HeatmapOptions → HeatmapOptions) : Rule :=
  of key kind fun value config => { config with heatmap := store value config.heatmap }

/-- A rule for a box plot option. -/
def boxplot {τ : Type} (key : String) (kind : Json → Option τ)
    (store : τ → BoxplotOptions → BoxplotOptions) : Rule :=
  of key kind fun value config => { config with boxplot := store value config.boxplot }

/-- A rule for a word cloud option. -/
def wordCloud {τ : Type} (key : String) (kind : Json → Option τ)
    (store : τ → WordCloudOptions → WordCloudOptions) : Rule :=
  of key kind fun value config => { config with wordCloud := store value config.wordCloud }

/-- The rules of the options that all charts share. -/
def shared : List Rule :=
  let text := Setting.optional Setting.text
  [ of "xField" text fun value config => { config with xField := value },
    of "yField" text fun value config => { config with yField := value },
    of "seriesField" text fun value config => { config with seriesField := value },
    of "valueField" text fun value config => { config with valueField := value },
    of "nameField" text fun value config => { config with nameField := value },
    of "smooth" Setting.flag fun value config => { config with smooth := value },
    of "stacked" Setting.flag fun value config => { config with stacked := value },
    of "horizontal" Setting.flag fun value config => { config with horizontal := value },
    of "enableZoom" Setting.flag fun value config => { config with enableZoom := value },
    of "showLabels" Setting.flag fun value config => { config with showLabels := value },
    of "isExpanded" Setting.flag fun value config => { config with isExpanded := value },
    of "colors" Setting.texts fun value config => { config with colors := value },
    of "palette" (Setting.optional Setting.palette) fun value config =>
      { config with palette := value },
    of "format" text fun value config => { config with format := value },
    of "decimals" (Setting.optional (Setting.naturalBelow 256)) fun value config =>
      { config with decimals := value },
    of "compactThreshold" (Setting.optional Setting.number) fun value config =>
      { config with compactThreshold := value },
    of "aggregation" Setting.aggregation fun value config =>
      { config with aggregation := value },
    of "overrides" (Setting.optional some) fun value config =>
      { config with overrides := value } ]

/-- The rules of the network options. -/
def networkRules : List Rule :=
  let text := Setting.optional Setting.text
  let number := Setting.number
  [ network "sourceField" text fun value options => { options with sourceField := value },
    network "targetField" text fun value options => { options with targetField := value },
    network "sourceNameField" text fun value options => { options with sourceNameField := value },
    network "targetNameField" text fun value options => { options with targetNameField := value },
    network "sourceGroupField" text fun value options => { options with sourceGroupField := value },
    network "targetGroupField" text fun value options => { options with targetGroupField := value },
    network "weightField" text fun value options => { options with weightField := value },
    network "edgeStyleField" text fun value options => { options with edgeStyleField := value },
    network "dateField" text fun value options => { options with dateField := value },
    network "amountField" text fun value options => { options with amountField := value },
    network "countField" text fun value options => { options with countField := value },
    network "tokenField" text fun value options => { options with tokenField := value },
    network "minNodeSize" number fun value options => { options with minNodeSize := value },
    network "maxNodeSize" number fun value options => { options with maxNodeSize := value },
    network "minEdgeWidth" number fun value options => { options with minEdgeWidth := value },
    network "maxEdgeWidth" number fun value options => { options with maxEdgeWidth := value },
    network "normalizeEdgeWidthToMax" Setting.flag fun value options =>
      { options with normalizeEdgeWidthToMax := value },
    network "curveSeparation" number fun value options => { options with curveSeparation := value },
    network "directionOffset" number fun value options => { options with directionOffset := value },
    network "maxCurvature" number fun value options => { options with maxCurvature := value },
    network "boundaryAnchorSources" Setting.texts fun value options =>
      { options with boundaryAnchorSources := value },
    network "anchorRadius" number fun value options => { options with anchorRadius := value },
    network "anchorAngleSeparation" number fun value options =>
      { options with anchorAngleSeparation := value },
    network "seedRadius" number fun value options => { options with seedRadius := value },
    network "seedCentralityBlend" number fun value options =>
      { options with seedCentralityBlend := value },
    network "seedCentralityCap" number fun value options =>
      { options with seedCentralityCap := value },
    network "edgeStyleColors" Setting.texts fun value options =>
      { options with edgeStyleColors := value } ]

/-- The rules of the options of all other charts. -/
def chartRules : List Rule :=
  let text := Setting.optional Setting.text
  [ heatmap "visualMapCenter" (Setting.optional Setting.number) fun value options =>
      { options with visualMapCenter := value },
    heatmap "usePercentileBounds" Setting.flag fun value options =>
      { options with usePercentileBounds := value },
    heatmap "lowerPercentile" Setting.number fun value options =>
      { options with lowerPercentile := value },
    heatmap "upperPercentile" Setting.number fun value options =>
      { options with upperPercentile := value },
    boxplot "minField" text fun value options => { options with minField := value },
    boxplot "q1Field" text fun value options => { options with q1Field := value },
    boxplot "medianField" text fun value options => { options with medianField := value },
    boxplot "q3Field" text fun value options => { options with q3Field := value },
    boxplot "maxField" text fun value options => { options with maxField := value },
    of "pathField" text fun value config =>
      { config with sunburst := { config.sunburst with pathField := value } },
    of "pathSeparator" text fun value config =>
      { config with sunburst := { config.sunburst with pathSeparator := value } },
    wordCloud "wordField" text fun value options => { options with wordField := value },
    wordCloud "maxWords" Setting.count fun value options => { options with maxWords := value },
    wordCloud "minWordLength" Setting.count fun value options =>
      { options with minWordLength := value },
    wordCloud "minFontSize" Setting.number fun value options =>
      { options with minFontSize := value },
    wordCloud "maxFontSize" Setting.number fun value options =>
      { options with maxFontSize := value },
    of "maxSlices" (Setting.optional Setting.count) fun value config =>
      { config with pie := { config.pie with maxSlices := value } },
    of "donut" Setting.flag fun value config =>
      { config with pie := { config.pie with donut := value } },
    of "quantileFields" Setting.texts fun value config =>
      { config with quantile := { quantileFields := value } } ]

/-- All rules. -/
def all : List Rule := shared ++ networkRules ++ chartRules

end Rule

/-! ## Configurations -/

namespace Config

/-- Reads one member into a configuration.  It fails when the value has the wrong kind; a key
without a rule changes nothing. -/
def readMember? (config : Config) (member : String × Json) : Option Config :=
  match Rule.all.find? fun rule => rule.key = member.1 with
  | some rule => (rule.read member.2).map fun store => store config
  | none => some config

/-- Reads members of the right kinds over the defaults. -/
def read? (members : Members) : Option Config :=
  members.foldlM readMember? {}

/-- Whether a member can be read on its own. -/
def isReadable (member : String × Json) : Bool :=
  (read? [member]).isSome

/-- Reads a configuration from any value.  Members of the wrong kind are left out, and a value that
is no object gives the defaults. -/
def ofJson : Json → Config
  | .object members =>
    match read? members with
    | some config => config
    | none => (read? (members.filter isReadable)).getD {}
  | _ => {}

/-- The keys of the members that are left out when a configuration is read. -/
def rejectedKeys (members : Members) : List String :=
  match read? members with
  | some _ => []
  | none => (members.filter fun member => !isReadable member).map (·.1)

end Config

end ChartCompiler
