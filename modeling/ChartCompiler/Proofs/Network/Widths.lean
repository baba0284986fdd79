import ChartCompiler.Chart.Network.Placement
import ChartCompiler.Proofs.Guide.Scale
import ChartCompiler.Proofs.Statistics.Percentile

/-!
# Widths of edges

The widths of edges follow their weights.  Whatever the weights are measured against, the range that
is drawn is not empty and ends at or below the heaviest weight (`drawnDomain_spec`), so the heaviest
edges are as thick as an edge can be; where there is no such range, one width is for all.  The roots
of the range are apart as well, unless all of it is negative, and then no weight is positive.
-/

set_option autoImplicit false

namespace ChartCompiler.Network

variable {K : Type} [Field K] [LinearOrder K]

/-! ## Widths and weights -/

/-- The widths of edges follow their weights. -/
structure Follow (thinnest thickest : K) (weights widths : List K) : Prop where
  /-- There is a width for every weight. -/
  length : widths.length = weights.length
  /-- No edge is thinner than the thinnest or thicker than the thickest one. -/
  bounded : ∀ width ∈ widths, thinnest ≤ width ∧ width ≤ thickest
  /-- A heavier edge is not thinner, and edges of one weight are of one width. -/
  ordered : ∀ (first second : Nat) (weight weight' width width' : K),
    weights[first]? = some weight → weights[second]? = some weight' →
    widths[first]? = some width → widths[second]? = some width' →
      (weight < weight' → width ≤ width') ∧ (weight = weight' → width = width')
  /-- If any weight is positive, the heaviest edges are as thick as an edge can be. -/
  saturated : (∃ weight ∈ weights, 0 < weight) → ∀ (position : Nat) (heaviest width : K),
    weights[position]? = some heaviest → (∀ weight ∈ weights, weight ≤ heaviest) →
      widths[position]? = some width → width = thickest

variable {weights : List K}

/-- Widths that are found one by one follow the weights if greater weights are not drawn thinner and
the heaviest are drawn thick. -/
theorem follow_map {thinnest thickest : K} {width : K → K} (monotone : Monotone width)
    (bounded : ∀ weight, width weight ∈ Set.Icc thinnest thickest)
    (saturated : ∀ positive ∈ weights, 0 < positive → ∀ heaviest,
      (∀ weight ∈ weights, weight ≤ heaviest) → width heaviest = thickest) :
    Follow thinnest thickest weights (weights.map width) := by
  have widthAt {position : Nat} {weight drawn : K} (here : weights[position]? = some weight)
      (there : (weights.map width)[position]? = some drawn) : drawn = width weight := by
    rw [List.getElem?_map, here] at there
    exact (Option.some.inj there).symm
  constructor
  case length => exact List.length_map _
  case bounded =>
    intro drawn member
    obtain ⟨weight, -, rfl⟩ := List.mem_map.mp member
    exact bounded weight
  case ordered =>
    intro first second weight weight' drawn drawn' here here' there there'
    rw [widthAt here there, widthAt here' there']
    exact ⟨fun lighter => monotone lighter.le, congrArg width⟩
  case saturated =>
    rintro ⟨positive, member, above⟩ position heaviest drawn here greatest there
    rw [widthAt here there]
    exact saturated positive member above heaviest greatest

/-! ## What is drawn -/

variable [FloorRing K] {root : K → K}

/-- The range of weights that is drawn, if there is one. -/
def drawnDomain (root : K → K) (mode : WidthMeasure) (weights : List K) : Option (K × K) :=
  (@widthDomain K (Quantity.exactly root) mode weights).filter fun (low, high) =>
    decide (low < high)

variable {mode : WidthMeasure} {low high : K}

/-- The range up to a percentile or to the last of some weights starts at zero. -/
theorem domainBelow_cases {sorted : List K} {percentile : Option K}
    (found : @domainBelow K (Quantity.exactly root) sorted percentile = some (low, high)) :
    low = 0 ∧ (percentile = some high ∨ sorted.getLast? = some high) := by
  unfold domainBelow at found
  obtain ⟨_, chosen, same⟩ := Option.map_eq_some_iff.mp found
  obtain ⟨rfl, rfl⟩ := Prod.mk.inj same
  refine ⟨Quantity.zero_exactly root, ?_⟩
  rcases Option.or_eq_some_iff.mp chosen with positive | ⟨-, last⟩
  · exact .inl (Option.filter_eq_some_iff.mp positive).1
  · exact .inr last

theorem edgeWidths_of_drawn {thinnest thickest : K}
    (drawn : drawnDomain root mode weights = some (low, high)) :
    @edgeWidths K (Quantity.exactly root) mode thinnest thickest weights =
      weights.map (@RootScale.map K (Quantity.exactly root)
        (@widthScale K (Quantity.exactly root) thinnest thickest low high)) := by
  unfold drawnDomain at drawn
  unfold edgeWidths
  simp only [drawn]

theorem edgeWidths_of_not_drawn {thinnest thickest : K}
    (flat : drawnDomain root mode weights = none) :
    @edgeWidths K (Quantity.exactly root) mode thinnest thickest weights =
      weights.map fun _ => @uniformWidth K (Quantity.exactly root) thinnest thickest weights := by
  unfold drawnDomain at flat
  unfold edgeWidths
  simp only [flat]

variable [IsStrictOrderedRing K]

/-- What is drawn from the thinnest to the thickest edge is not empty and ends at a weight or below
one, and above zero if any weight is positive. -/
theorem drawnDomain_spec (drawn : drawnDomain root mode weights = some (low, high)) :
    low < high ∧ (∃ weight ∈ weights, high ≤ weight) ∧
      ∀ weight ∈ weights, 0 < weight → 0 < high := by
  obtain ⟨found, apart⟩ := Option.filter_eq_some_iff.mp drawn
  have apart : low < high := of_decide_eq_true apart
  refine ⟨apart, ?_⟩
  cases mode with
  | percentile90 =>
      have ascending := pairwise_sortedFinite root weights
      have same := sortedFinite_perm root weights
      obtain ⟨rfl, below⟩ := domainBelow_cases found
      refine ⟨?_, fun _ _ _ => apart⟩
      rcases below with between | last
      · obtain ⟨-, -, above, member, -, reached⟩ := percentile_between ascending between
        exact ⟨above, same.mem_iff.mp member, reached⟩
      · exact ⟨high, same.mem_iff.mp (List.mem_of_getLast? last), le_rfl⟩
  | minMax =>
      obtain ⟨extent, ofWeights, ends⟩ := Option.map_eq_some_iff.mp found
      obtain ⟨rfl, rfl⟩ := Prod.mk.inj ends
      rcases Extent.of_exactly root weights with ⟨-, none⟩ | ⟨_, some, -, member, greatest⟩
      · cases none.symm.trans ofWeights
      · obtain rfl := Option.some.inj (some.symm.trans ofWeights)
        exact ⟨⟨_, member, le_rfl⟩, fun weight here positive => positive.trans_le (greatest here)⟩

/-- **Without rounding, the widths of edges follow their weights.** -/
theorem edgeWidths_follow (increasing : StrictMonoOn root (Set.Ici 0)) (mode : WidthMeasure)
    {thinnest thickest : K} (ordered : thinnest ≤ thickest) (weights : List K) :
    Follow thinnest thickest weights
      (@edgeWidths K (Quantity.exactly root) mode thinnest thickest weights) := by
  cases drawn : drawnDomain root mode weights with
  | none =>
      rw [edgeWidths_of_not_drawn drawn]
      -- All edges are of one width, and it is the thickest if any weight is positive.
      apply follow_map
      · exact monotone_const
      · intro weight
        unfold uniformWidth
        split
        · exact ⟨ordered, le_rfl⟩
        · exact ⟨le_rfl, ordered⟩
      · intro positive member above heaviest _
        unfold uniformWidth
        refine if_pos (List.any_eq_true.mpr ⟨positive, member, decide_eq_true ?_⟩)
        rwa [Quantity.zero_exactly]
  | some domain =>
      obtain ⟨low, high⟩ := domain
      obtain ⟨apart, ⟨weight, member, below⟩, positive⟩ := drawnDomain_spec drawn
      rw [edgeWidths_of_drawn drawn]
      apply follow_map
      · exact RootScale.monotone_map increasing apart.le ordered
      · exact RootScale.map_mem_Icc ⟨low, high, thinnest, thickest⟩ ordered
      · intro other there above heaviest greatest
        exact RootScale.map_eq_rangeEnd increasing apart (positive other there above)
          (below.trans (greatest weight member))

/-- Most weights are small and one is beyond the percentile. -/
theorem edgeWidths_follow_of_outlier :
    StrictMonoOn (id : ℚ → ℚ) (Set.Ici 0) ∧ (1 : ℚ) ≤ 8 ∧
      Follow (1 : ℚ) 8 [-2, 0, 1, 4, 100] [1, 1, 49 / 44, 16 / 11, 8] := by
  have increasing : StrictMonoOn (id : ℚ → ℚ) (Set.Ici 0) := strictMono_id.strictMonoOn _
  have ordered : (1 : ℚ) ≤ 8 := by decide
  have sorted : @sortedFinite ℚ (Quantity.exactly id) [-2, 0, 1, 4, 100] = [-2, 0, 1, 4, 100] :=
    List.mergeSort_of_pairwise (by decide +kernel)
  have widths : @edgeWidths ℚ (Quantity.exactly id) .percentile90 1 8 [-2, 0, 1, 4, 100] =
      [1, 1, 49 / 44, 16 / 11, 8] := by
    unfold edgeWidths widthDomain
    rw [sorted]
    decide +kernel
  refine ⟨increasing, ordered, ?_⟩
  rw [← widths]
  exact edgeWidths_follow increasing .percentile90 ordered _

end ChartCompiler.Network
