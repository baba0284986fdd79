import ChartCompiler.Config.Reading
import ChartCompiler.Proofs.Json.Members
import Mathlib.Data.List.Nodup
import Mathlib.Logic.Function.Basic

/-!
# Configurations are read key by key

The members of a configuration do not interfere.  The option of a key is what its member says on its
own: what the object with this member alone is read as, and the default when there is no such member
or when its value has the wrong kind (`ofJson_keywise`).

Reading is a fold over the members.  Whether a member can be read does not depend on what was read
before it (`readMember?_eq`), and a member that can be read changes the option of its key and no
other one (`Rule.StoresAlone`).  So the fold collects what the members say on their own.
-/

set_option autoImplicit false

namespace ChartCompiler

/-! ## Options by key -/

namespace Config

/-- The configuration that takes the option of each key from the part of that key. -/
def assembled (part : String → Config) : Config where
  xField := (part "xField").xField
  yField := (part "yField").yField
  seriesField := (part "seriesField").seriesField
  valueField := (part "valueField").valueField
  nameField := (part "nameField").nameField
  smooth := (part "smooth").smooth
  stacked := (part "stacked").stacked
  horizontal := (part "horizontal").horizontal
  enableZoom := (part "enableZoom").enableZoom
  showLabels := (part "showLabels").showLabels
  isExpanded := (part "isExpanded").isExpanded
  colors := (part "colors").colors
  palette := (part "palette").palette
  format := (part "format").format
  decimals := (part "decimals").decimals
  compactThreshold := (part "compactThreshold").compactThreshold
  aggregation := (part "aggregation").aggregation
  overrides := (part "overrides").overrides
  network :=
    { sourceField := (part "sourceField").network.sourceField
      targetField := (part "targetField").network.targetField
      sourceNameField := (part "sourceNameField").network.sourceNameField
      targetNameField := (part "targetNameField").network.targetNameField
      sourceGroupField := (part "sourceGroupField").network.sourceGroupField
      targetGroupField := (part "targetGroupField").network.targetGroupField
      weightField := (part "weightField").network.weightField
      edgeStyleField := (part "edgeStyleField").network.edgeStyleField
      dateField := (part "dateField").network.dateField
      amountField := (part "amountField").network.amountField
      countField := (part "countField").network.countField
      tokenField := (part "tokenField").network.tokenField
      minNodeSize := (part "minNodeSize").network.minNodeSize
      maxNodeSize := (part "maxNodeSize").network.maxNodeSize
      minEdgeWidth := (part "minEdgeWidth").network.minEdgeWidth
      maxEdgeWidth := (part "maxEdgeWidth").network.maxEdgeWidth
      normalizeEdgeWidthToMax :=
        (part "normalizeEdgeWidthToMax").network.normalizeEdgeWidthToMax
      curveSeparation := (part "curveSeparation").network.curveSeparation
      directionOffset := (part "directionOffset").network.directionOffset
      maxCurvature := (part "maxCurvature").network.maxCurvature
      boundaryAnchorSources := (part "boundaryAnchorSources").network.boundaryAnchorSources
      anchorRadius := (part "anchorRadius").network.anchorRadius
      anchorAngleSeparation := (part "anchorAngleSeparation").network.anchorAngleSeparation
      seedRadius := (part "seedRadius").network.seedRadius
      seedCentralityBlend := (part "seedCentralityBlend").network.seedCentralityBlend
      seedCentralityCap := (part "seedCentralityCap").network.seedCentralityCap
      edgeStyleColors := (part "edgeStyleColors").network.edgeStyleColors }
  heatmap :=
    { visualMapCenter := (part "visualMapCenter").heatmap.visualMapCenter
      usePercentileBounds := (part "usePercentileBounds").heatmap.usePercentileBounds
      lowerPercentile := (part "lowerPercentile").heatmap.lowerPercentile
      upperPercentile := (part "upperPercentile").heatmap.upperPercentile }
  boxplot :=
    { minField := (part "minField").boxplot.minField
      q1Field := (part "q1Field").boxplot.q1Field
      medianField := (part "medianField").boxplot.medianField
      q3Field := (part "q3Field").boxplot.q3Field
      maxField := (part "maxField").boxplot.maxField }
  sunburst :=
    { pathField := (part "pathField").sunburst.pathField
      pathSeparator := (part "pathSeparator").sunburst.pathSeparator }
  wordCloud :=
    { wordField := (part "wordField").wordCloud.wordField
      maxWords := (part "maxWords").wordCloud.maxWords
      minWordLength := (part "minWordLength").wordCloud.minWordLength
      minFontSize := (part "minFontSize").wordCloud.minFontSize
      maxFontSize := (part "maxFontSize").wordCloud.maxFontSize }
  pie :=
    { maxSlices := (part "maxSlices").pie.maxSlices
      donut := (part "donut").pie.donut }
  quantile :=
    { quantileFields := (part "quantileFields").quantile.quantileFields }

/-- What the member under a key says on its own: the configuration that is read from this member
alone.  It is the default when there is no such member or when the member cannot be read. -/
def alone (members : Members) (key : String) : Config :=
  ((Members.find? key members).bind fun value => read? [(key, value)]).getD {}

end Config

/-! ## Rules -/

namespace Rule

open Config

/-- What a rule stores is the option of its own key: the other options stay, and what is stored does
not depend on them. -/
def StoresAlone (rule : Rule) : Prop :=
  ∀ value store, rule.read value = some store → ∀ part : String → Config,
    store (assembled part) = assembled (Function.update part rule.key (store {}))

theorem storesAlone_of {τ : Type} {key : String} {kind : Json → Option τ}
    {store : τ → Config → Config}
    (alone : ∀ value part, store value (assembled part) =
      assembled (Function.update part key (store value {}))) : (of key kind store).StoresAlone := by
  intro value stored read part
  obtain ⟨found, -, rfl⟩ := Option.map_eq_some_iff.mp read
  exact alone found part

/-- Each rule stores the option that is assembled from the part of its key. -/
theorem storesAlone_all : ∀ rule ∈ all, rule.StoresAlone := by
  rw [all, shared, networkRules, chartRules]
  repeat
    refine List.forall_mem_cons.mpr ⟨storesAlone_of fun value part => ?_, ?_⟩
    · simp [assembled]
  exact fun _ => nofun

end Rule

namespace Config

variable {members : Members}

/-! ## One member -/

/-- What a member does to configurations, if its value has the kind that its key asks for.  A member
without a rule does nothing. -/
def effect? (member : String × Json) : Option (Config → Config) :=
  match Rule.all.find? fun rule => rule.key = member.1 with
  | some rule => rule.read member.2
  | none => some id

/-- Whether a member can be read does not depend on what was read before. -/
theorem readMember?_eq (config : Config) (member : String × Json) :
    readMember? config member = (effect? member).map fun store => store config := by
  rw [readMember?, effect?]
  cases Rule.all.find? fun rule => rule.key = member.1 with
  | none => rfl
  | some rule => rfl

theorem read?_singleton (member : String × Json) :
    read? [member] = (effect? member).map fun store => store {} := by
  rw [read?, List.foldlM_cons, readMember?_eq]
  cases effect? member with
  | none => rfl
  | some store => rfl

theorem isReadable_eq (member : String × Json) : isReadable member = (effect? member).isSome := by
  rw [isReadable, read?_singleton, Option.isSome_map]

/-- A member that can be read changes the option of its key alone. -/
theorem assembled_update {member : String × Json} {store : Config → Config}
    (effect : effect? member = some store) {part : String → Config} (new : part member.1 = {}) :
    store (assembled part) = assembled (Function.update part member.1 (store {})) := by
  rw [effect?] at effect
  split at effect
  · next rule found =>
      have same : rule.key = member.1 := by simpa using List.find?_some found
      rw [← same]
      exact Rule.storesAlone_all rule (List.mem_of_find?_eq_some found) _ _ effect part
  · obtain rfl := Option.some.inj effect
    rw [id, id, ← new, Function.update_eq_self]

/-! ## All members -/

theorem read?_append_singleton (members : Members) (member : String × Json) :
    read? (members ++ [member]) = (read? members).bind fun config => readMember? config member := by
  rw [read?, List.foldlM_append]
  refine congrArg (Option.bind _) (funext fun config => ?_)
  rw [List.foldlM_cons]
  exact Option.bind_fun_some _

theorem alone_of_not_mem {key : String} (absent : key ∉ members.keys) : alone members key = {} := by
  rw [alone, Members.find?_eq_none_of_not_mem absent]
  rfl

/-- One more member has its say under its own key. -/
theorem alone_append_singleton {member : String × Json} (new : member.1 ∉ members.keys) :
    alone (members ++ [member]) =
      Function.update (alone members) member.1 ((read? [member]).getD {}) := by
  funext key
  obtain ⟨name, value⟩ := member
  by_cases same : key = name
  · subst same
    rw [Function.update_self, alone, Members.find?_append, Members.find?_eq_none_of_not_mem new]
    simp [Members.find?]
  · rw [Function.update_of_ne same, alone, Members.find?_append]
    simp [Members.find?, Ne.symm same, alone]

/-- **Members can be read together exactly when each of them can be read on its own, and then each
key has the option that its member says on its own.** -/
theorem read?_eq (distinct : members.keys.Nodup) :
    read? members = if members.all isReadable then some (assembled (alone members)) else none := by
  induction members using List.reverseRecOn with
  | nil => rfl
  | append_singleton members member ih =>
      have parts : (Members.keys members).Nodup ∧ member.1 ∉ Members.keys members := by
        rwa [Members.keys, List.map_append, List.map_singleton, ← List.concat_eq_append,
          List.nodup_concat, and_comm] at distinct
      obtain ⟨distinct, new⟩ := parts
      rw [read?_append_singleton, ih distinct, List.all_append, List.all_cons, List.all_nil,
        Bool.and_true]
      by_cases earlier : members.all isReadable = true
      · rw [if_pos earlier, Option.bind_some, readMember?_eq, earlier, Bool.true_and, isReadable_eq,
          alone_append_singleton new, read?_singleton]
        cases effect : effect? member with
        | none => rfl
        | some store =>
            exact congrArg some (assembled_update effect (alone_of_not_mem new))
      · simp [earlier]

/-! ## Reading any object -/

/-- A member says nothing on its own when it cannot be read, or when it has no rule. -/
theorem alone_filter (distinct : members.keys.Nodup) {keep : String × Json → Bool}
    (silent : ∀ member ∈ members, keep member = false → (read? [member]).getD {} = {}) :
    alone (members.filter keep) = alone members := by
  funext key
  rw [alone, alone, Members.find?_filter distinct]
  cases found : Members.find? key members with
  | none => rfl
  | some value =>
      cases kept : keep (key, value) with
      | true => simp [Option.filter, kept]
      | false =>
          have nothing := silent _ (Members.mem_of_find?_eq_some found) kept
          simp [Option.filter, kept, nothing]

/-- What is read from any object. -/
theorem ofJson_eq (distinct : members.keys.Nodup) :
    read? (members.filter isReadable) = some (assembled (alone members)) ∧
    ofJson (.object members) = assembled (alone members) := by
  have readable : read? (members.filter isReadable) = some (assembled (alone members)) := by
    have silent : ∀ member ∈ members, isReadable member = false →
        (read? [member]).getD {} = {} := by
      intro member _ refused
      rw [isReadable, Option.isSome_eq_false_iff, Option.isNone_iff_eq_none] at refused
      rw [refused, Option.getD_none]
    rw [read?_eq (Members.nodup_keys_filter distinct _), alone_filter distinct silent]
    simp
  refine ⟨readable, ?_⟩
  rw [ofJson, readable, read?_eq distinct]
  cases members.all isReadable with
  | true => rfl
  | false => rfl

/-- An object is read key by key. -/
structure ReadKeywise (members : Members) : Prop where
  /-- The option of each key is what the member under the key says on its own. -/
  options : ofJson (.object members) = assembled (alone members)
  /-- The members that can be read on their own can be read together. -/
  together : read? (members.filter isReadable) = some (ofJson (.object members))
  /-- Where all members can be read together, leaving out the others makes no difference. -/
  whole : ∀ config, read? members = some config →
    read? (members.filter isReadable) = some config
  /-- A key without a rule has no effect. -/
  unknown : ∀ key, (∀ rule ∈ Rule.all, rule.key ≠ key) →
    ofJson (.object (members.filter fun member => member.1 ≠ key)) = ofJson (.object members)
  /-- A value of the wrong kind has no effect, as if its key were not there. -/
  malformed : ∀ key value, Members.find? key members = some value →
    read? [(key, value)] = none →
    ofJson (.object (members.filter fun member => member.1 ≠ key)) = ofJson (.object members)

/-- **Configurations are read key by key.** -/
theorem ofJson_keywise {members : Members} (distinct : members.keys.Nodup) :
    ReadKeywise members := by
  have without (key : String)
      (silent : ∀ value, (key, value) ∈ members → (read? [(key, value)]).getD {} = {}) :
      ofJson (.object (members.filter fun member => member.1 ≠ key)) =
        ofJson (.object members) := by
    rw [(ofJson_eq (Members.nodup_keys_filter distinct _)).2, (ofJson_eq distinct).2,
      alone_filter distinct]
    rintro ⟨name, value⟩ member dropped
    obtain rfl : name = key := by simpa using dropped
    exact silent value member
  obtain ⟨readable, options⟩ := ofJson_eq distinct
  refine ⟨options, options ▸ readable, ?_, ?_, ?_⟩
  · intro config whole
    rw [readable, ← options, ofJson, whole]
  · intro key unknown
    refine without key fun value _ => ?_
    have none : Rule.all.find? (fun rule => rule.key = key) = none :=
      List.find?_eq_none.mpr fun rule member => by simpa using unknown rule member
    rw [read?_singleton, effect?, none]
    rfl
  · intro key value found refused
    refine without key fun other member => ?_
    obtain rfl : other = value :=
      Option.some.inj (((Members.find?_eq_some_iff distinct).mpr member).symm.trans found)
    rw [refused, Option.getD_none]

/-- Two values of the wrong kind, a key without a rule, and a value that is read. -/
def mixedMembers : Members :=
  [("maxWords", .string "many"), ("note", 3), ("smooth", .null), ("xField", .string "day")]

theorem ofJson_keywise_of_mixed : mixedMembers.keys.Nodup ∧ ReadKeywise mixedMembers :=
  ⟨by decide, ofJson_keywise (by decide)⟩

end Config

end ChartCompiler
