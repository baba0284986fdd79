import ChartCompiler.Proofs.Sorting
import ChartCompiler.Time.Cadence

/-!
# What a sampling depends on

A series is judged by its first cells.  It is a time series when any of them reads as an instant
(`Sampling.isTimeSeries_ofCells_iff`), and the order of the cells that are looked at does not matter
(`Sampling.ofCells_eq_of_perm`).
-/

set_option autoImplicit false

namespace ChartCompiler

/-! ## Sorting -/

/-- Numbers have one ascending order. -/
theorem ascending_eq_of_perm {numbers numbers' : List Int} (perm : numbers.Perm numbers') :
    numbers.mergeSort = numbers'.mergeSort := by
  refine mergeSort_eq_of_perm ?_ ?_ perm ?_
  · intro first second third before after
    exact decide_eq_true (Int.le_trans (of_decide_eq_true before) (of_decide_eq_true after))
  · intro first second
    rw [Bool.or_eq_true]
    exact (Int.le_total first second).imp decide_eq_true decide_eq_true
  · intro first _ second _ before after
    exact Int.le_antisymm (of_decide_eq_true before) (of_decide_eq_true after)

/-! ## Samplings -/

/-- The cells that are looked at and read as instants, with their instants. -/
def samplesOf (cells : List Json) : List (Json × Instant) :=
  (cells.take Cadence.sampleCount).filterMap fun cell =>
    (Instant.ofCell? cell).map fun instant => (cell, instant)

theorem mem_samplesOf {cells : List Json} {cell : Json} {instant : Instant} :
    (cell, instant) ∈ samplesOf cells ↔
      cell ∈ cells.take Cadence.sampleCount ∧ Instant.ofCell? cell = some instant := by
  rw [samplesOf, List.mem_filterMap]
  constructor
  · rintro ⟨_, member, sampled⟩
    obtain ⟨_, read, same⟩ := Option.map_eq_some_iff.mp sampled
    obtain ⟨rfl, rfl⟩ := Prod.mk.inj same
    exact ⟨member, read⟩
  · rintro ⟨member, read⟩
    exact ⟨cell, member, by rw [read, Option.map_some]⟩

theorem samplesOf_eq_nil_iff {cells : List Json} :
    samplesOf cells = [] ↔
      ∀ cell ∈ cells.take Cadence.sampleCount, Instant.ofCell? cell = none := by
  simp only [samplesOf, List.filterMap_eq_nil_iff, Option.map_eq_none_iff]

/-- The moments of the cells that are looked at, in ascending order. -/
def ascendingMoments (cells : List Json) : List Int :=
  ((samplesOf cells).map fun (_, instant) => instant.milliseconds).mergeSort

theorem pairwise_ascendingMoments (cells : List Json) :
    (ascendingMoments cells).Pairwise (· ≤ ·) :=
  List.pairwise_mergeSort' (fun first second : Int => first ≤ second) _

/-- The gaps between neighbours that are apart. -/
def Cadence.openGaps (moments : List Int) : List Int :=
  (neighbourGaps moments).filter (0 < ·)

namespace Sampling

theorem ofCells_eq (cells : List Json) :
    ofCells cells =
      if (samplesOf cells).isEmpty then .untimed
      else .ofCadence
        (((Cadence.openGaps (ascendingMoments cells)).min?.map Cadence.ofGap).getD
          (.ofSingle ((samplesOf cells).any fun (cell, instant) => namesClock cell instant))) :=
  rfl

theorem isTimeSeries_ofCells_iff {cells : List Json} :
    (ofCells cells).isTimeSeries = true ↔
      ∃ cell ∈ cells.take Cadence.sampleCount, (Instant.ofCell? cell).isSome = true := by
  have sampled : (∃ cell ∈ cells.take Cadence.sampleCount, (Instant.ofCell? cell).isSome = true) ↔
      samplesOf cells ≠ [] := by
    simp only [ne_eq, samplesOf_eq_nil_iff, not_forall, exists_prop, Option.isSome_iff_ne_none]
  rw [sampled, ofCells_eq]
  cases samplesOf cells with
  | nil => exact iff_of_false Bool.false_ne_true (not_not.mpr rfl)
  | cons sample rest => exact iff_of_true rfl (List.cons_ne_nil _ _)

/-- **The order of the cells that are looked at does not matter, and neither do the others.** -/
theorem ofCells_eq_of_perm {cells cells' : List Json}
    (perm : (cells.take Cadence.sampleCount).Perm (cells'.take Cadence.sampleCount)) :
    ofCells cells = ofCells cells' := by
  have samples : (samplesOf cells).Perm (samplesOf cells') := perm.filterMap _
  have moments : ascendingMoments cells = ascendingMoments cells' :=
    ascending_eq_of_perm (samples.map _)
  rw [ofCells_eq, ofCells_eq, samples.isEmpty_eq, moments, samples.any_eq]

end Sampling

end ChartCompiler
