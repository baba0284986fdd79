import ChartCompiler.Pivot.Chronology
import ChartCompiler.Proofs.Time.Reading
import ChartCompiler.Proofs.Time.Sampling
import Mathlib.Order.Bounds.Defs
import Mathlib.Data.Set.Subsingleton
import Mathlib.Algebra.Order.Group.Unbundled.Abs

/-!
# What a cadence says

The cadence of a series is found from the gaps between neighbours after sorting.  The least of them
is the least distance of any two moments, because between two moments lie neighbours that are no
farther apart (`Cadence.isLeast_distances`).  Where all moments are the same there are no gaps,
however often the moment was read, and the series is finer than a day exactly when some cell carries
a time of day other than midnight.  So a sampling is judged by the moments alone, and by the
spelling of the cells only where the moments are one (`Sampling.ofCells_judged`).
-/

set_option autoImplicit false

namespace ChartCompiler

/-! ## Distances -/

/-- The distances between different moments. -/
def distances (moments : Set Int) : Set Int :=
  {distance | ∃ first ∈ moments, ∃ second ∈ moments, first ≠ second ∧ distance = |second - first|}

namespace Cadence

theorem mem_neighbourGaps {moments : List Int} {gap : Int} (member : gap ∈ neighbourGaps moments) :
    ∃ first ∈ moments, ∃ second ∈ moments, gap = second - first := by
  fun_induction neighbourGaps moments with
  | case1 first second rest ih =>
      rcases List.mem_cons.mp member with rfl | later
      · exact ⟨first, .head _, second, .tail _ (.head _), rfl⟩
      · obtain ⟨low, here, high, there, same⟩ := ih later
        exact ⟨low, .tail _ here, high, .tail _ there, same⟩
  | case2 => cases member

/-- Between two samples lie neighbours that are no farther apart. -/
theorem exists_neighbourGap {moments : List Int} (ascending : moments.Pairwise (· ≤ ·))
    {low high : Int} (lowMember : low ∈ moments) (highMember : high ∈ moments) (less : low < high) :
    ∃ gap ∈ neighbourGaps moments, 0 < gap ∧ gap ≤ high - low := by
  induction moments generalizing low with
  | nil => cases lowMember
  | cons start later ih =>
      obtain ⟨least, sorted⟩ := List.pairwise_cons.mp ascending
      have highLater : high ∈ later := by
        rcases List.mem_cons.mp highMember with rfl | member
        · rcases List.mem_cons.mp lowMember with rfl | lowLater
          · exact absurd less (Int.lt_irrefl _)
          · exact absurd less (Int.not_lt.mpr (least low lowLater))
        · exact member
      -- Neighbours among the later samples are neighbours.
      have among {below : Int} (member : below ∈ later) (less : below < high) :
          ∃ gap ∈ neighbourGaps (start :: later), 0 < gap ∧ gap ≤ high - below := by
        obtain ⟨gap, member, bounds⟩ := ih sorted member highLater less
        cases later with
        | nil => cases highLater
        | cons next rest => exact ⟨gap, List.mem_cons_of_mem _ member, bounds⟩
      rcases List.mem_cons.mp lowMember with rfl | lowLater
      · cases later with
        | nil => cases highLater
        | cons next rest =>
            have nextLeast : next ≤ high := by
              rcases List.mem_cons.mp highLater with rfl | member
              · exact Int.le_refl _
              · exact (List.pairwise_cons.mp sorted).1 high member
            rcases Int.lt_or_eq_of_le (least next List.mem_cons_self) with apart | rfl
            · exact ⟨next - low, List.mem_cons_self, by omega, by omega⟩
            · exact among List.mem_cons_self less
      · exact among lowLater less

variable {moments : List Int}

/-- A gap between neighbours is a distance, and no distance is smaller than all gaps. -/
theorem exists_openGap_le (ascending : moments.Pairwise (· ≤ ·)) {distance : Int}
    (between : distance ∈ distances {moment | moment ∈ moments}) :
    ∃ gap ∈ openGaps moments, gap ≤ distance := by
  obtain ⟨first, here, second, there, differ, rfl⟩ := between
  rcases lt_or_gt_of_ne differ with less | less
  · obtain ⟨gap, member, positive, bound⟩ := exists_neighbourGap ascending here there less
    exact ⟨gap, List.mem_filter.mpr ⟨member, decide_eq_true positive⟩, bound.trans (le_abs_self _)⟩
  · obtain ⟨gap, member, positive, bound⟩ := exists_neighbourGap ascending there here less
    rw [abs_sub_comm]
    exact ⟨gap, List.mem_filter.mpr ⟨member, decide_eq_true positive⟩, bound.trans (le_abs_self _)⟩

theorem mem_distances_of_mem_openGaps {gap : Int} (member : gap ∈ openGaps moments) :
    gap ∈ distances {moment | moment ∈ moments} := by
  obtain ⟨member, positive⟩ := List.mem_filter.mp member
  obtain ⟨first, here, second, there, rfl⟩ := mem_neighbourGaps member
  have apart : 0 < second - first := of_decide_eq_true positive
  exact ⟨first, here, second, there, (sub_pos.mp apart).ne, (abs_of_pos apart).symm⟩

/-- **The least gap between neighbours is the least distance.** -/
theorem isLeast_distances (ascending : moments.Pairwise (· ≤ ·)) {gap : Int}
    (least : (openGaps moments).min? = some gap) :
    IsLeast (distances {moment | moment ∈ moments}) gap := by
  obtain ⟨member, lower⟩ := List.min?_eq_some_iff.mp least
  refine ⟨mem_distances_of_mem_openGaps member, fun distance between => ?_⟩
  obtain ⟨gap', member', bound⟩ := exists_openGap_le ascending between
  exact (lower gap' member').trans bound

/-- The distances that a cadence stands for, where a day has 86400000 milliseconds. -/
def Spans : Cadence → Int → Prop
  | subDaily, gap => gap < 86400000
  | daily, gap => 86400000 ≤ gap ∧ gap < 6 * 86400000
  | weekly, gap => 6 * 86400000 ≤ gap ∧ gap < 28 * 86400000
  | monthly, gap => 28 * 86400000 ≤ gap ∧ gap < 335 * 86400000
  | yearly, gap => 335 * 86400000 ≤ gap
  | unknown, _ => False

theorem spans_ofGap (gap : Int) : (ofGap gap).Spans gap := by
  unfold ofGap
  split_ifs with day year month week
  · exact day
  · exact year
  · exact ⟨month, not_le.mp year⟩
  · exact ⟨week, not_le.mp month⟩
  · exact ⟨not_lt.mp day, not_le.mp week⟩

end Cadence

/-! ## Clocks -/

/-- A text holds a digit, a colon and two digits in a row. -/
def HoldsClock (text : List Char) : Prop :=
  ∃ hour tens ones, isDigit hour = true ∧ isDigit tens = true ∧ isDigit ones = true ∧
    [hour, ':', tens, ones] <:+: text

theorem spellsClock_iff {text : List Char} : spellsClock text = true ↔ HoldsClock text := by
  fun_induction spellsClock text with
  | case1 hour colon tens ones rest ih =>
      rw [Bool.or_eq_true, ih]
      constructor
      · rintro (start | ⟨hour', tens', ones', hourDigit, tensDigit, onesDigit, later⟩)
        · simp only [Bool.and_eq_true, beq_iff_eq] at start
          obtain ⟨⟨⟨hourDigit, rfl⟩, tensDigit⟩, onesDigit⟩ := start
          exact ⟨hour, tens, ones, hourDigit, tensDigit, onesDigit, [], rest, rfl⟩
        · exact ⟨hour', tens', ones', hourDigit, tensDigit, onesDigit,
            later.trans (List.suffix_cons _ _).isInfix⟩
      · rintro ⟨hour', tens', ones', hourDigit, tensDigit, onesDigit, within⟩
        rcases List.infix_cons_iff.mp within with start | later
        · simp only [List.cons_prefix_cons] at start
          obtain ⟨rfl, rfl, rfl, rfl, -⟩ := start
          left
          rw [hourDigit, tensDigit, onesDigit]
          rfl
        · exact .inr ⟨hour', tens', ones', hourDigit, tensDigit, onesDigit, later⟩
  | case2 text short =>
      refine iff_of_false Bool.false_ne_true ?_
      rintro ⟨hour, tens, ones, -, -, -, within⟩
      have long : 4 ≤ text.length := within.length_le
      rcases text with _ | ⟨_, _ | ⟨_, _ | ⟨_, _ | ⟨_, rest⟩⟩⟩⟩
      case cons.cons.cons.cons => exact short _ _ _ _ _ rfl
      all_goals contradiction

/-- A cell carries a time of day other than midnight.  A text has to spell one out. -/
def CarriesClock (cell : Json) : Prop :=
  (∃ instant, Instant.ofCell? cell = some instant ∧
    instant.clock ≠ { hour := 0, minute := 0, second := 0 }) ∧
  ∀ text, cell = .string text → HoldsClock text.toList

theorem namesClock_iff {cell : Json} {instant : Instant}
    (read : Instant.ofCell? cell = some instant) :
    namesClock cell instant = true ↔ CarriesClock cell := by
  have clock : (∃ other, Instant.ofCell? cell = some other ∧
      other.clock ≠ { hour := 0, minute := 0, second := 0 }) ↔
        instant.clock ≠ { hour := 0, minute := 0, second := 0 } := by
    simp only [read, Option.some.injEq, exists_eq_left']
  unfold namesClock
  rw [CarriesClock, clock, Bool.and_eq_true, decide_eq_true_iff, and_comm]
  refine and_congr_right fun _ => ?_
  cases cell with
  | string text =>
      show spellsClock text.toList = true ↔ _
      rw [spellsClock_iff]
      constructor
      · rintro holds _ ⟨⟩
        exact holds
      · exact fun holds => holds text rfl
  | _ => exact iff_of_true rfl fun _ => nofun

/-! ## Samplings -/

/-- The moments of the first thirty cells, which are those that are looked at. -/
def sampledMoments (cells : List Json) : Set Int :=
  {moment | ∃ cell ∈ cells.take 30, moment? cell = some moment}

variable {cells : List Json}

theorem mem_sampledMoments {cell : Json} {instant : Instant}
    (member : cell ∈ cells.take Cadence.sampleCount) (read : Instant.ofCell? cell = some instant) :
    instant.milliseconds ∈ sampledMoments cells :=
  ⟨cell, member, by rw [moment?, read, Option.map_some]⟩

theorem sampledMoments_eq (cells : List Json) :
    sampledMoments cells = {moment | moment ∈ ascendingMoments cells} := by
  ext moment
  simp only [sampledMoments, ascendingMoments, Set.mem_ofPred_eq, List.mem_mergeSort, List.mem_map,
    Prod.exists, mem_samplesOf, moment?, Option.map_eq_some_iff, and_assoc, exists_and_left,
    Cadence.sampleCount]

/-- The milliseconds between two moments fit into 64 bits. -/
theorem sub_bounds_of_sampledMoments {first second : Int} (here : first ∈ sampledMoments cells)
    (there : second ∈ sampledMoments cells) :
    -(2 ^ 63) ≤ second - first ∧ second - first < 2 ^ 63 := by
  obtain ⟨_, -, timed⟩ := here
  obtain ⟨_, -, timed'⟩ := there
  obtain ⟨instant, read, rfl⟩ := Option.map_eq_some_iff.mp timed
  obtain ⟨instant', read', rfl⟩ := Option.map_eq_some_iff.mp timed'
  have bounds := Instant.milliseconds_bounds_of_ofCell? read
  have bounds' := Instant.milliseconds_bounds_of_ofCell? read'
  omega

namespace Sampling

/-- A moment makes a time series. -/
theorem ofCells_of_mem {moment : Int} (member : moment ∈ sampledMoments cells) :
    ofCells cells = .ofCadence
      (((Cadence.openGaps (ascendingMoments cells)).min?.map Cadence.ofGap).getD
        (.ofSingle ((samplesOf cells).any fun (cell, instant) => namesClock cell instant))) := by
  obtain ⟨cell, looked, read⟩ := member
  obtain ⟨instant, read, -⟩ := Option.map_eq_some_iff.mp read
  have sampled := List.ne_nil_of_mem (mem_samplesOf.mpr ⟨looked, read⟩)
  rw [ofCells_eq, if_neg (mt List.isEmpty_iff.mp sampled)]

/-- Two different moments leave a least distance, which settles the cadence. -/
theorem exists_least_of_nontrivial (apart : (sampledMoments cells).Nontrivial) :
    ∃ gap, IsLeast (distances (sampledMoments cells)) gap ∧
      ofCells cells = .ofCadence (.ofGap gap) := by
  obtain ⟨first, here, second, there, differ⟩ := apart
  have between : |second - first| ∈ distances (sampledMoments cells) :=
    ⟨first, here, second, there, differ, rfl⟩
  rw [ofCells_of_mem here]
  rw [sampledMoments_eq] at between ⊢
  obtain ⟨near, listed, -⟩ := Cadence.exists_openGap_le (pairwise_ascendingMoments cells) between
  cases least : (Cadence.openGaps (ascendingMoments cells)).min? with
  | none =>
      rw [List.min?_eq_none_iff.mp least] at listed
      cases listed
  | some gap => exact ⟨gap, Cadence.isLeast_distances (pairwise_ascendingMoments cells) least, rfl⟩

/-- A single moment leaves no gaps, so the spelling settles the cadence. -/
theorem ofCells_of_single {moment : Int} (single : sampledMoments cells = {moment}) :
    ofCells cells = .ofCadence
      (.ofSingle ((samplesOf cells).any fun (cell, instant) => namesClock cell instant)) := by
  -- A gap would be the distance of two different moments.
  have closed : Cadence.openGaps (ascendingMoments cells) = [] := by
    refine List.eq_nil_iff_forall_not_mem.mpr fun gap listed => ?_
    have between := Cadence.mem_distances_of_mem_openGaps listed
    rw [← sampledMoments_eq, single] at between
    obtain ⟨first, rfl, second, rfl, differ, -⟩ := between
    exact differ rfl
  rw [ofCells_of_mem (single ▸ Set.mem_singleton moment), closed]
  rfl

theorem any_namesClock_iff (cells : List Json) :
    (samplesOf cells).any (fun (cell, instant) => namesClock cell instant) = true ↔
      ∃ cell ∈ cells.take 30, CarriesClock cell := by
  rw [List.any_eq_true]
  constructor
  · rintro ⟨⟨cell, instant⟩, sampled, named⟩
    obtain ⟨member, read⟩ := mem_samplesOf.mp sampled
    exact ⟨cell, member, (namesClock_iff read).mp named⟩
  · rintro ⟨cell, member, carried⟩
    obtain ⟨instant, read, -⟩ := carried.1
    exact ⟨(cell, instant), mem_samplesOf.mpr ⟨member, read⟩, (namesClock_iff read).mpr carried⟩

/-- The first thirty cells judge a sampling. -/
structure Judge (cells : List Json) (sampling : Sampling) : Prop where
  /-- Different moments leave a least distance, and the cadence stands for it. -/
  apart : (sampledMoments cells).Nontrivial →
    sampling.isTimeSeries = true ∧ ∃ gap, IsLeast (distances (sampledMoments cells)) gap ∧
      sampling.cadence.Spans gap
  /-- A single moment is finer than a day exactly when some cell carries a time of day. -/
  single : ∀ moment, sampledMoments cells = {moment} →
    sampling.isTimeSeries = true ∧
      ((sampling.cadence = .subDaily ∧ ∃ cell ∈ cells.take 30, CarriesClock cell) ∨
        (sampling.cadence = .daily ∧ ¬ ∃ cell ∈ cells.take 30, CarriesClock cell))
  /-- Without a moment there is no time series. -/
  absent : sampledMoments cells = ∅ → sampling.isTimeSeries = false ∧ sampling.cadence = .unknown
  /-- The time of day is left out of a time series that is not finer than a day. -/
  clock : sampling.omitsClock = true ↔
    sampling.isTimeSeries = true ∧ sampling.cadence ≠ .subDaily

theorem omitsClock_ofCells_iff (cells : List Json) : (ofCells cells).omitsClock = true ↔
    (ofCells cells).isTimeSeries = true ∧ (ofCells cells).cadence ≠ .subDaily := by
  rw [ofCells_eq]
  split
  · exact iff_of_false Bool.false_ne_true fun both => Bool.false_ne_true both.1
  · simp [ofCadence]

/-- **A sampling is judged by the moments of the first thirty cells, in whatever order they come**,
and no difference of two moments overflows. -/
theorem ofCells_judged (cells : List Json) :
    Judge cells (ofCells cells) ∧
      (∀ cells' : List Json, (cells.take 30).Perm (cells'.take 30) →
        ofCells cells' = ofCells cells) ∧
      ∀ first ∈ sampledMoments cells, ∀ second ∈ sampledMoments cells,
        -(2 ^ 63) ≤ second - first ∧ second - first < 2 ^ 63 := by
  refine ⟨?_, fun _ perm => (ofCells_eq_of_perm perm).symm,
    fun _ here _ there => sub_bounds_of_sampledMoments here there⟩
  constructor
  case apart =>
    intro apart
    obtain ⟨gap, least, sampled⟩ := exists_least_of_nontrivial apart
    rw [sampled]
    exact ⟨rfl, gap, least, Cadence.spans_ofGap gap⟩
  case single =>
    intro moment single
    have spelled := any_namesClock_iff cells
    rw [ofCells_of_single single]
    refine ⟨rfl, ?_⟩
    cases named : (samplesOf cells).any fun (cell, instant) => namesClock cell instant with
    | true => exact .inl ⟨rfl, spelled.mp named⟩
    | false => exact .inr ⟨rfl, (Bool.eq_false_iff.mp named).imp spelled.mpr⟩
  case absent =>
    intro absent
    have unread : samplesOf cells = [] := by
      refine samplesOf_eq_nil_iff.mpr fun cell member => Option.eq_none_iff_forall_ne_some.mpr ?_
      intro instant read
      have moment := mem_sampledMoments member read
      rwa [absent] at moment
    rw [ofCells_eq, unread]
    exact ⟨rfl, rfl⟩
  case clock => exact omitsClock_ofCells_iff cells

/-- Two days a week apart, the later one first, and a text. -/
def week : List Json :=
  [.string "2024-03-10", .string "note", .string "2024-03-03", .string "2024-03-03"]

theorem sampledMoments_week : sampledMoments week = {1709424000000, 1710028800000} := by
  have moments : week.map moment? =
      [some 1710028800000, none, some 1709424000000, some 1709424000000] := by decide +kernel
  ext moment
  have read : moment ∈ sampledMoments week ↔ some moment ∈ week.map moment? := List.mem_map.symm
  rw [read, moments]
  simp only [List.mem_cons, Option.some.injEq, reduceCtorEq, List.not_mem_nil, or_false, false_or,
    or_self, Set.mem_insert_iff, Set.mem_singleton_iff]
  exact or_comm

/-- The days are a weekly series, although the later one comes first. -/
theorem ofCells_judged_of_week :
    (sampledMoments week).Nontrivial ∧
      (ofCells week).isTimeSeries = true ∧ (ofCells week).cadence = .weekly ∧
        (ofCells week).omitsClock = true := by
  have apart : (sampledMoments week).Nontrivial := by
    rw [sampledMoments_week]
    exact Set.nontrivial_pair (by decide)
  obtain ⟨judged, -⟩ := ofCells_judged week
  obtain ⟨series, gap, least, spans⟩ := judged.apart apart
  have days : gap = 604800000 := by
    obtain ⟨first, here, second, there, differ, rfl⟩ := least.1
    rw [sampledMoments_week] at here there
    rcases here with rfl | rfl <;> rcases there with rfl | rfl
    · exact absurd rfl differ
    · rfl
    · rfl
    · exact absurd rfl differ
  subst days
  have weekly : (ofCells week).cadence = .weekly := by
    cases cadence : (ofCells week).cadence <;> simp_all [Cadence.Spans]
  exact ⟨apart, series, weekly, judged.clock.mpr ⟨series, by simp [weekly]⟩⟩

end Sampling

end ChartCompiler
