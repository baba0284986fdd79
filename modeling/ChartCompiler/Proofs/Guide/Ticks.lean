import ChartCompiler.Guide.Ticks
import ChartCompiler.Proofs.Number.Finiteness
import ChartCompiler.Proofs.Number.WholeDoubles

/-!
# Ticks enclose the range

The first tick of an axis is not above the range, and its last tick is not below it, up to a few
units in the last place of the numbers involved (`roundTicks_enclose`).  Two limits are part of the
program: an axis has at most ten thousand steps, so a longer one stops short of the range, and an
axis whose number of steps is not finite has one tick.

Enclosing needs nothing of the round step but that it is positive, and that holds of any power of
ten and any factor (`isUnsigned_roundStep`).  The ends of the range are divided by the step, moved
outward to whole numbers and multiplied back; the number of steps is found by the same division.
Each of these operations moves a number by at most one rounding, and the number of steps is a whole
number that rounding may have blurred: the nearest whole number to the blurred one is off by at most
twice the blur (`abs_steps_sub_le`).
-/

set_option autoImplicit false

namespace ChartCompiler

open Float.Model.UnpackedFloat

/-! ## Round steps -/

theorem isUnsigned_powerOfTen (exponent : ℤ) :
    isUnsigned (powerOfTen exponent).toModel.unpack = true := by
  have table : ∀ power < 23, ∀ below,
      isUnsigned (Float.ofScientific 1 below power).toModel.unpack = true := by
    decide +kernel
  have upper : ∀ power ∈ [23, 210], isUnsigned
      (Float.ofBits ((Float.ofScientific 1 false power).toBits + 1)).toModel.unpack = true := by
    decide +kernel
  rw [powerOfTen]
  split
  · next either =>
    apply upper
    rw [List.mem_pair]
    omega
  · generalize decide (exponent < 0) = below
    generalize exponent.natAbs = power
    by_cases small : power < 23
    · exact table power small below
    · rw [Float.ofScientific, dif_neg (by omega)]
      exact isUnsigned_unpack_pack (isUnsigned_ofScientific _ _)

/-- **A round step is not negative, and never undefined.** -/
theorem isUnsigned_roundStep (raw : Float) : isUnsigned (roundStep raw).toModel.unpack = true := by
  have base := isUnsigned_powerOfTen (roundedExponent raw)
  have ten : (10 : Float).toModel.unpack = .finite .positive (5 * 2 ^ 50) (-49) (by decide) := rfl
  have five : (5 : Float).toModel.unpack = .finite .positive (5 * 2 ^ 50) (-50) (by decide) := rfl
  have two : (2 : Float).toModel.unpack = .finite .positive (2 ^ 52) (-51) (by decide) := rfl
  have one : (1 : Float).toModel.unpack = .finite .positive (2 ^ 52) (-52) (by decide) := rfl
  rw [roundStep]
  split
  · dsimp only
    split
    · exact isUnsigned_mul ten base
    · split
      · exact isUnsigned_mul five base
      · split
        · exact isUnsigned_mul two base
        · exact isUnsigned_mul one base
  · rfl

/-! ## Rounding errors -/

/-- A unit in the last place of a number: twice what rounding moves it at most. -/
def lastPlaceUnit (greatest : ℚ) : ℚ :=
  2 * (2 ^ (-53 : ℤ) * greatest + 2 ^ (-1075 : ℤ))

section Errors

variable {greatest number rounded quotient step : ℚ}

theorem lastPlaceUnit_nonneg (nonneg : 0 ≤ greatest) : 0 ≤ lastPlaceUnit greatest := by
  rw [lastPlaceUnit]
  positivity

/-- What rounding moves a number that is as great as many numbers. -/
theorem rounding_le {many extra : ℚ} (one_le : 1 ≤ many) (above : 0 ≤ extra) (nonneg : 0 ≤ greatest)
    (bounded : |number| ≤ many * greatest + extra * lastPlaceUnit greatest) :
    2 ^ (-53 : ℤ) * |number| + 2 ^ (-1075 : ℤ) ≤
      (many / 2 + extra / 1000) * lastPlaceUnit greatest := by
  have small : (2 : ℚ) ^ (-53 : ℤ) ≤ 1 / 1000 := by norm_num
  have nonneg' : (0 : ℚ) ≤ 2 ^ (-1075 : ℤ) := by positivity
  have scaled := mul_le_mul_of_nonneg_left bounded (by positivity : (0 : ℚ) ≤ 2 ^ (-53 : ℤ))
  have rest := mul_le_mul_of_nonneg_right small (mul_nonneg above (lastPlaceUnit_nonneg nonneg))
  have once := mul_le_mul_of_nonneg_right one_le nonneg'
  have unit : lastPlaceUnit greatest = 2 * (2 ^ (-53 : ℤ) * greatest + 2 ^ (-1075 : ℤ)) := rfl
  generalize (2 : ℚ) ^ (-1075 : ℤ) = least at *
  generalize (2 : ℚ) ^ (-53 : ℤ) = share at *
  have split : many / 2 * lastPlaceUnit greatest = share * (many * greatest) + many * least := by
    rw [unit]
    ring
  linarith

theorem RoundsTo.moved_le (rounds : RoundsTo number rounded) (many extra : ℚ) (one_le : 1 ≤ many)
    (above : 0 ≤ extra) (nonneg : 0 ≤ greatest)
    (bounded : |number| ≤ many * greatest + extra * lastPlaceUnit greatest) :
    |rounded - number| ≤ (many / 2 + extra / 1000) * lastPlaceUnit greatest :=
  rounds.abs_sub_le.trans (rounding_le one_le above nonneg bounded)

/-- A rounded quotient that is multiplied back is moved by at most half a unit more. -/
theorem RoundsTo.quotient_moved_le (rounds : RoundsTo (number / step) quotient) (many extra : ℚ)
    (one_le : 1 ≤ many) (above : 0 ≤ extra) (positive : 0 < step) (within : step ≤ greatest)
    (bounded : |number| ≤ many * greatest + extra * lastPlaceUnit greatest) :
    |quotient * step - number| ≤ (many / 2 + extra / 1000 + 1 / 2) * lastPlaceUnit greatest := by
  have error := rounding_le one_le above (positive.le.trans within) bounded
  have least : (0 : ℚ) ≤ 2 ^ (-1075 : ℤ) := by positivity
  have underflow : (2 : ℚ) ^ (-1075 : ℤ) * step ≤ 2 ^ (-53 : ℤ) * greatest :=
    mul_le_mul (zpow_le_zpow_right₀ one_le_two (by norm_num)) within positive.le (by positivity)
  have unit : lastPlaceUnit greatest = 2 * (2 ^ (-53 : ℤ) * greatest + 2 ^ (-1075 : ℤ)) := rfl
  have nonzero := positive.ne'
  have multiplied : quotient * step - number = (quotient - number / step) * step := by
    rw [sub_mul, div_mul_cancel₀ _ nonzero]
  calc |quotient * step - number|
      = |quotient - number / step| * step := by rw [multiplied, abs_mul, abs_of_pos positive]
    _ ≤ (2 ^ (-53 : ℤ) * |number / step| + 2 ^ (-1075 : ℤ)) * step :=
        mul_le_mul_of_nonneg_right rounds.abs_sub_le positive.le
    _ = 2 ^ (-53 : ℤ) * |number| + 2 ^ (-1075 : ℤ) * step := by
        rw [abs_div, abs_of_pos positive, add_mul, mul_assoc, div_mul_cancel₀ _ nonzero]
    _ ≤ _ := by linarith

/-! ## Ends of an axis -/

/-- A tick is a number of steps, rounded, that does not lie far beyond the range. -/
structure AxisEnd (greatest step : ℚ) (units : ℤ) (tick : ℚ) : Prop where
  /-- The number of steps is at most twice as great as the greatest number, and a unit. -/
  size : |units * step| ≤ 2 * greatest + lastPlaceUnit greatest
  /-- The product is rounded. -/
  rounds : RoundsTo (units * step) tick

variable {units units' : ℤ} {start stop spread : ℚ}

theorem AxisEnd.moved_le (snapped : AxisEnd greatest step units start) (nonneg : 0 ≤ greatest) :
    |start - units * step| ≤ 1001 / 1000 * lastPlaceUnit greatest := by
  have size := snapped.size
  have moved := snapped.rounds.moved_le 2 1 one_le_two zero_le_one nonneg (by linarith)
  linarith

/-- A lower end that is reached up to a unit is reached up to two after rounding: either it is about
as great as the range, so that rounding moves it by little more than half a unit, or it lies below
the range anyway. -/
theorem AxisEnd.le_of_reached (snapped : AxisEnd greatest step units start) (nonneg : 0 ≤ greatest)
    (bounded : |number| ≤ greatest)
    (reached : units * step ≤ number + lastPlaceUnit greatest) :
    start ≤ number + 2 * lastPlaceUnit greatest := by
  have unit := lastPlaceUnit_nonneg nonneg
  obtain ⟨least, most⟩ := abs_le.mp bounded
  rcases le_or_gt (-(greatest + lastPlaceUnit greatest)) (units * step) with near | below
  · have size : |units * step| ≤ 1 * greatest + 1 * lastPlaceUnit greatest :=
      abs_le.mpr ⟨by linarith, by linarith⟩
    have moved := snapped.rounds.moved_le 1 1 le_rfl zero_le_one nonneg size
    linarith [(abs_le.mp moved).2]
  · linarith [(abs_le.mp (snapped.moved_le nonneg)).2]

/-- The lower end is moved outward, by less than a step, and then by a unit. -/
theorem RoundsTo.floor_mul_le (rounds : RoundsTo (number / step) quotient) (positive : 0 < step)
    (within : step ≤ greatest) (bounded : |number| ≤ greatest) :
    ⌊quotient⌋ * step ≤ number + lastPlaceUnit greatest ∧
      |⌊quotient⌋ * step| ≤ 2 * greatest + lastPlaceUnit greatest := by
  have moved := rounds.quotient_moved_le 1 0 le_rfl le_rfl positive within (by linarith)
  have below := mul_le_mul_of_nonneg_right (Int.floor_le quotient) positive.le
  have above := mul_le_mul_of_nonneg_right (Int.sub_one_lt_floor quotient).le positive.le
  obtain ⟨low, high⟩ := abs_le.mp moved
  obtain ⟨least, most⟩ := abs_le.mp bounded
  refine ⟨by linarith, abs_le.mpr ⟨by linarith, by linarith⟩⟩

/-- The upper end is the lower end of the range turned around. -/
theorem RoundsTo.le_ceil_mul (rounds : RoundsTo (number / step) quotient) (positive : 0 < step)
    (within : step ≤ greatest) (bounded : |number| ≤ greatest) :
    number - lastPlaceUnit greatest ≤ ⌈quotient⌉ * step ∧
      |⌈quotient⌉ * step| ≤ 2 * greatest + lastPlaceUnit greatest := by
  have turned : RoundsTo (-number / step) (-quotient) := by
    rw [neg_div]
    exact rounds.neg
  obtain ⟨below, size⟩ := turned.floor_mul_le positive within (by rwa [abs_neg])
  rw [Int.floor_neg, Int.cast_neg, neg_mul] at below size
  rw [abs_neg] at size
  exact ⟨by linarith, size⟩

/-- **The number of steps is right up to a few units**: it is the whole number nearest a quotient
that rounding has moved by seven units at most, and the right number of steps is one as well. -/
theorem abs_steps_sub_le (positive : 0 < step) (within : step ≤ greatest)
    (lower : AxisEnd greatest step units start) (upper : AxisEnd greatest step units' stop)
    (spreads : RoundsTo (stop - start) spread) (divides : RoundsTo (spread / step) quotient) :
    |nearestWhole quotient * step - (units' * step - units * step)| ≤
      14 * lastPlaceUnit greatest := by
  have nonneg : 0 ≤ greatest := positive.le.trans within
  have unit := lastPlaceUnit_nonneg nonneg
  obtain ⟨low, low'⟩ := abs_le.mp lower.size
  obtain ⟨high, high'⟩ := abs_le.mp upper.size
  obtain ⟨startLow, startHigh⟩ := abs_le.mp (lower.moved_le nonneg)
  obtain ⟨stopLow, stopHigh⟩ := abs_le.mp (upper.moved_le nonneg)
  have difference : |stop - start| ≤ 4 * greatest + 5 * lastPlaceUnit greatest :=
    abs_le.mpr ⟨by linarith, by linarith⟩
  have spreadError := abs_le.mp (spreads.moved_le 4 5 (by norm_num) (by norm_num) nonneg difference)
  have size : |spread| ≤ 4 * greatest + 8 * lastPlaceUnit greatest := by
    obtain ⟨least, most⟩ := abs_le.mp difference
    exact abs_le.mpr ⟨by linarith, by linarith⟩
  have quotientError := abs_le.mp
    (divides.quotient_moved_le 4 8 (by norm_num) (by norm_num) positive within size)
  have blur : |((units' - units : ℤ) : ℚ) * step - quotient * step| ≤
      7 * lastPlaceUnit greatest := by
    push_cast
    exact abs_le.mpr ⟨by linarith, by linarith⟩
  have nearest := mul_le_mul_of_nonneg_right
    (abs_nearestWhole_sub_le_abs quotient (units' - units)) positive.le
  have scale (left right : ℚ) : |left - right| * step = |left * step - right * step| := by
    rw [← sub_mul, abs_mul, abs_of_pos positive]
  rw [scale, scale] at nearest
  have near := abs_le.mp (nearest.trans blur)
  push_cast at blur
  obtain ⟨least, most⟩ := abs_le.mp blur
  exact abs_le.mpr ⟨by linarith, by linarith⟩

/-- **The last tick reaches the upper end of the axis up to twenty-one units.** -/
theorem le_last_tick {steps : ℤ} {count : ℕ} {product tick : ℚ} (positive : 0 < step)
    (within : step ≤ greatest) (lower : AxisEnd greatest step units start)
    (upper : AxisEnd greatest step units' stop)
    (near : |steps * step - (units' * step - units * step)| ≤ 14 * lastPlaceUnit greatest)
    (count_eq : (count : ℤ) = max steps 0) (products : RoundsTo (step * count) product)
    (sums : RoundsTo (start + product) tick) :
    units' * step - 21 * lastPlaceUnit greatest ≤ tick := by
  have nonneg : 0 ≤ greatest := positive.le.trans within
  have unit := lastPlaceUnit_nonneg nonneg
  obtain ⟨low, low'⟩ := abs_le.mp lower.size
  obtain ⟨high, high'⟩ := abs_le.mp upper.size
  obtain ⟨few, many⟩ := abs_le.mp near
  obtain ⟨startLow, startHigh⟩ := abs_le.mp (lower.moved_le nonneg)
  have count_le : steps * step ≤ step * count := by
    have cast : (steps : ℚ) ≤ count := by exact_mod_cast (le_max_left _ _).trans_eq count_eq.symm
    rw [mul_comm step]
    exact mul_le_mul_of_nonneg_right cast positive.le
  have size : |step * count| ≤ 4 * greatest + 16 * lastPlaceUnit greatest := by
    rw [abs_of_nonneg (by positivity)]
    rcases le_total steps 0 with none | some
    · have zero : count = 0 := by omega
      rw [zero, Nat.cast_zero, mul_zero]
      positivity
    · have same : (steps : ℚ) = count := by
        exact_mod_cast (max_eq_left some).symm.trans count_eq.symm
      rw [mul_comm, ← same]
      linarith
  obtain ⟨least, most⟩ := abs_le.mp size
  have productError := abs_le.mp (products.moved_le 4 16 (by norm_num) (by norm_num) nonneg size)
  have sumError := abs_le.mp (sums.moved_le 6 25 (by norm_num) (by norm_num) nonneg
    (abs_le.mpr ⟨by linarith, by linarith⟩))
  linarith

end Errors

/-! ## Axes of doubles -/

/-- The number of steps between two values, as a double. -/
def stepsBetween (low high step : Float) : Float :=
  roundOf ((ceilOf (high / step) * step - floorOf (low / step) * step) / step)

/-- The first of some ticks is a number that is at most the bound. -/
def StartsAtMost (ticks : List Float) (bound : ℚ) : Prop :=
  ∃ tick, ticks.head? = some tick ∧ tick.isFinite = true ∧ valueOf tick ≤ bound

/-- A tick is at least the bound; an infinite one may be. -/
def Reaches (tick : Float) (bound : ℚ) : Prop :=
  tick.toModel.unpack = .infinity .positive ∨ tick.isFinite = true ∧ bound ≤ valueOf tick

/-- The last of some ticks is at least the bound. -/
def EndsAtLeast (ticks : List Float) (bound : ℚ) : Prop :=
  ∃ tick, ticks.getLast? = some tick ∧ Reaches tick bound

section Doubles

variable {low high step start edge : Float}

/-- The number of steps is finite before it is rounded if it is so afterwards. -/
theorem isFinite_of_stepsBetween (finite : (stepsBetween low high step).isFinite = true) :
    ((ceilOf (high / step) * step - floorOf (low / step) * step) / step).isFinite = true := by
  rw [stepsBetween, roundOf] at finite
  exact isFinite_of_wholeBy finite

/-- A finite step other than zero is positive. -/
theorem valueOf_pos (unsigned : isUnsigned step.toModel.unpack = true)
    (finite : step.isFinite = true) (nonzero : ¬ (step == 0) = true) : 0 < valueOf step := by
  rcases isFinite_iff.mp finite with ⟨sign, read⟩ | ⟨sign, mantissa, exponent, positive, read⟩
  · have zero := ofNat_exact 0 (by decide)
    have same : valueOf step = valueOf (Float.ofNat 0) := by
      rw [valueOf_of_zero read, zero.2, Nat.cast_zero]
    exact absurd ((beq_iff_valueOf finite zero.1).mpr same) nonzero
  · rw [valueOf, read]
    rw [read] at unsigned
    cases sign with
    | negative => cases unsigned
    | positive => exact unpackedValue_pos positive

/-- The first of the ticks is the lower end of the axis. -/
theorem first_tick_eq (startFinite : start.isFinite = true) (stepFinite : step.isFinite = true) :
    (start + step * Float.ofNat 0).isFinite = true ∧
      valueOf (start + step * Float.ofNat 0) = valueOf start := by
  have zero := ofNat_exact 0 (by decide)
  have product := roundedTo_mul stepFinite zero.1
  rw [zero.2, Nat.cast_zero, mul_zero, ← Int.cast_zero] at product
  obtain ⟨productFinite, productValue⟩ := product.eq_of_whole (by norm_num)
  have sum := roundedTo_add startFinite productFinite
  rw [productValue, Int.cast_zero, add_zero] at sum
  obtain ⟨finite, rounds⟩ := sum.finite_of_abs_le startFinite le_rfl
  exact ⟨finite, rounds.eq_valueOf startFinite⟩

/-- A tick is the lower end and a number of steps, each rounded, or it is infinite. -/
theorem reaches_tick {count : ℕ} {bound : ℚ} (startFinite : start.isFinite = true)
    (stepFinite : step.isFinite = true) (nonneg : 0 ≤ valueOf step) (short : count < 2 ^ 53)
    (near : ∀ product tick, RoundsTo (valueOf step * count) product →
      RoundsTo (valueOf start + product) tick → bound ≤ tick) :
    Reaches (start + step * Float.ofNat count) bound := by
  obtain ⟨countFinite, countValue⟩ := ofNat_exact count short
  have distance : 0 ≤ valueOf step * count := by positivity
  have negative : ¬ (0 : ℚ) ≤ -2 ^ 1024 := by
    rw [not_le, neg_lt_zero]
    positivity
  have product := roundedTo_mul stepFinite countFinite
  rw [countValue] at product
  rcases product with ⟨finite, rounds⟩ | ⟨read, -⟩ | ⟨-, rounded, rounds, below⟩
  · have sum := roundedTo_add startFinite finite
    rcases sum with ⟨finite', rounds'⟩ | ⟨read, -⟩ | ⟨read, rounded, rounds', below⟩
    · exact .inr ⟨finite', near _ _ rounds rounds'⟩
    · exact .inl read
    · -- A sum of the lower end and a number that is not negative is not below that end.
      have above := rounds.nonneg distance
      rcases le_total 0 (valueOf start + valueOf (step * Float.ofNat count)) with sign | sign
      · exact absurd ((rounds'.nonneg sign).trans below) negative
      · have bounded : |valueOf start + valueOf (step * Float.ofNat count)| ≤ |valueOf start| := by
          rw [abs_of_nonpos sign, abs_of_nonpos (by linarith)]
          linarith
        have finite' := ((roundedTo_add startFinite finite).finite_of_abs_le startFinite bounded).1
        have within : (start + step * Float.ofNat count).toModel.unpack.isFinite = true := finite'
        rw [read] at within
        cases within
  · exact .inl (unpack_add_infinity startFinite read)
  · exact absurd ((rounds.nonneg distance).trans below) negative

theorem head?_ticksBetween (low high step : Float) :
    (ticksBetween low high step).head? =
      some (floorOf (low / step) * step + step * Float.ofNat 0) := by
  rw [ticksBetween, List.head?_map, List.head?_range, if_neg (Nat.succ_ne_zero _)]
  rfl

theorem ticksBetween_ne_nil (low high step : Float) : ticksBetween low high step ≠ [] := by
  intro none
  have head := head?_ticksBetween low high step
  rw [none] at head
  cases head

/-- The number of steps that fit on an axis. -/
def stepCount (low high step : Float) : ℕ :=
  if (stepsBetween low high step).isFinite then
    min (wholePart (stepsBetween low high step)) stepLimit
  else
    0

theorem getLast?_ticksBetween (low high step : Float) :
    (ticksBetween low high step).getLast? = some
      (floorOf (low / step) * step + step * Float.ofNat (stepCount low high step)) := by
  rw [ticksBetween, List.getLast?_map, List.getLast?_range, if_neg (Nat.succ_ne_zero _)]
  rfl

theorem length_ticksBetween_le (low high step : Float) :
    (ticksBetween low high step).length ≤ stepLimit + 1 := by
  rw [ticksBetween, List.length_map, List.length_range]
  split <;> omega

/-! ### Ends -/

/-- An end of an axis is the end of the range divided by the step, moved to a whole number and
multiplied back, with a rounding each time. -/
theorem roundsTo_end {rule : Bool → ℕ → ℕ → ℕ} {target : ℚ → ℤ} (follows : Follows rule target)
    (edgeFinite : edge.isFinite = true) (positive : 0 < valueOf step)
    (finite : (wholeBy rule (edge / step) * step).isFinite = true) :
    RoundsTo (valueOf edge / valueOf step) (valueOf (edge / step)) ∧
      RoundsTo (target (valueOf (edge / step)) * valueOf step)
        (valueOf (wholeBy rule (edge / step) * step)) := by
  obtain ⟨wholeFinite, stepFinite⟩ := isFinite_of_mul finite
  have quotientFinite := isFinite_of_wholeBy wholeFinite
  have rounds := (roundedTo_mul wholeFinite stepFinite).roundsTo finite
  rw [(wholeBy_eq follows quotientFinite).2] at rounds
  exact ⟨(roundedTo_div edgeFinite stepFinite positive.ne').roundsTo quotientFinite, rounds⟩

/-- The greatest number that the ticks between two values are computed with. -/
def greatestBetween (low high step : Float) : ℚ :=
  max (max |valueOf low| |valueOf high|) (valueOf step)

theorem le_greatestBetween (low high step : Float) :
    valueOf step ≤ greatestBetween low high step :=
  le_max_right _ _

/-- What is known of the ticks between two values if the number of steps is finite. -/
structure Spaced (low high step : Float) : Prop where
  /-- The step is finite. -/
  stepFinite : step.isFinite = true
  /-- The step is positive. -/
  positive : 0 < valueOf step
  /-- The lower end is finite. -/
  startFinite : (floorOf (low / step) * step).isFinite = true
  /-- The lower end is a number of steps, rounded. -/
  lower : AxisEnd (greatestBetween low high step) (valueOf step) ⌊valueOf (low / step)⌋
    (valueOf (floorOf (low / step) * step))
  /-- The upper end is a number of steps, rounded. -/
  upper : AxisEnd (greatestBetween low high step) (valueOf step) ⌈valueOf (high / step)⌉
    (valueOf (ceilOf (high / step) * step))
  /-- The lower end is moved outward. -/
  low_reached : ⌊valueOf (low / step)⌋ * valueOf step ≤
    valueOf low + lastPlaceUnit (greatestBetween low high step)
  /-- The upper end is moved outward. -/
  high_reached : valueOf high - lastPlaceUnit (greatestBetween low high step) ≤
    ⌈valueOf (high / step)⌉ * valueOf step
  /-- The number of steps is about the one that leads from end to end. -/
  counted : ∃ steps : ℤ, (wholePart (stepsBetween low high step) : ℤ) = max steps 0 ∧
    |steps * valueOf step - (⌈valueOf (high / step)⌉ * valueOf step -
      ⌊valueOf (low / step)⌋ * valueOf step)| ≤ 14 * lastPlaceUnit (greatestBetween low high step)

/-- The guard on the number of steps vouches for all that the number is computed from. -/
theorem spaced_of_isFinite (lowFinite : low.isFinite = true) (highFinite : high.isFinite = true)
    (unsigned : isUnsigned step.toModel.unpack = true) (nonzero : ¬ (step == 0) = true)
    (finite : (stepsBetween low high step).isFinite = true) : Spaced low high step := by
  have quotientFinite := isFinite_of_stepsBetween finite
  have spreadFinite := isFinite_of_div quotientFinite
  obtain ⟨stopFinite, startFinite⟩ := isFinite_of_sub spreadFinite
  obtain ⟨-, stepFinite⟩ := isFinite_of_mul startFinite
  have positive := valueOf_pos unsigned stepFinite nonzero
  have within := le_greatestBetween low high step
  obtain ⟨lowQuotient, starts⟩ := roundsTo_end follows_floor lowFinite positive startFinite
  obtain ⟨highQuotient, stops⟩ := roundsTo_end follows_ceil highFinite positive stopFinite
  obtain ⟨lowReached, lowSize⟩ := lowQuotient.floor_mul_le positive within
    ((le_max_left _ _).trans (le_max_left _ _))
  obtain ⟨highReached, highSize⟩ := highQuotient.le_ceil_mul positive within
    ((le_max_right _ _).trans (le_max_left _ _))
  have lower := AxisEnd.mk lowSize starts
  have upper := AxisEnd.mk highSize stops
  have spreads := (roundedTo_sub stopFinite startFinite).roundsTo spreadFinite
  have divides := (roundedTo_div spreadFinite stepFinite positive.ne').roundsTo quotientFinite
  have count := wholePart_eq finite
  rw [stepsBetween, (roundOf_eq quotientFinite).2, Int.floor_intCast] at count
  exact ⟨stepFinite, positive, startFinite, lower, upper, lowReached, highReached, _, count,
    abs_steps_sub_le positive within lower upper spreads divides⟩

namespace Spaced

variable (spaced : Spaced low high step)

include spaced

theorem greatest_nonneg : 0 ≤ greatestBetween low high step :=
  spaced.positive.le.trans (le_greatestBetween low high step)

/-- **The first tick is the lower value at most**, up to two units. -/
theorem startsAtMost : StartsAtMost (ticksBetween low high step)
    (valueOf low + 2 * lastPlaceUnit (greatestBetween low high step)) := by
  have bounded : |valueOf low| ≤ greatestBetween low high step :=
    (le_max_left _ _).trans (le_max_left _ _)
  obtain ⟨finite, value⟩ := first_tick_eq spaced.startFinite spaced.stepFinite
  refine ⟨_, head?_ticksBetween low high step, finite, ?_⟩
  rw [value]
  exact spaced.lower.le_of_reached spaced.greatest_nonneg bounded spaced.low_reached

/-- **The last tick is the upper value at least**, up to a few units, if no step is left out. -/
theorem endsAtLeast (finite : (stepsBetween low high step).isFinite = true)
    (few : wholePart (stepsBetween low high step) ≤ stepLimit) :
    EndsAtLeast (ticksBetween low high step)
      (valueOf high - 22 * lastPlaceUnit (greatestBetween low high step)) := by
  have all : stepCount low high step = wholePart (stepsBetween low high step) := by
    rw [stepCount, if_pos finite, min_eq_left few]
  obtain ⟨steps, count, near⟩ := spaced.counted
  refine ⟨_, getLast?_ticksBetween low high step, ?_⟩
  rw [all]
  apply reaches_tick spaced.startFinite spaced.stepFinite spaced.positive.le
  · exact few.trans_lt (by decide)
  · intro product tick products sums
    have bound := le_last_tick spaced.positive (le_greatestBetween low high step) spaced.lower
      spaced.upper near count products sums
    linarith [spaced.high_reached]

end Spaced

end Doubles

/-! ## Axes -/

/-- The lower of two ends. -/
def lowerOf (first second : Float) : Float :=
  if second < first then second else first

/-- The upper of two ends. -/
def upperOf (first second : Float) : Float :=
  if second < first then first else second

/-- The step of the ticks that cover two values; zero if the values themselves are the ticks. -/
def tickStep (first second : Float) (count : ℕ) : Float :=
  if first == second then 0
  else roundStep ((upperOf first second - lowerOf first second) / Float.ofNat count)

/-- The number of steps of the ticks that cover two values. -/
def tickSteps (first second : Float) (count : ℕ) : Float :=
  stepsBetween (lowerOf first second) (upperOf first second) (tickStep first second count)

/-- What rounding moves the ends of an axis by is counted in units in the last place of the greatest
of the ends and the step.  If the ends themselves are the ticks, nothing is rounded. -/
def tickUnit (first second : Float) (count : ℕ) : ℚ :=
  if tickStep first second count == 0 then 0
  else lastPlaceUnit (greatestBetween first second (tickStep first second count))

section Axes

variable {first second : Float} {count : ℕ} (finite : first.isFinite = true)
  (finite' : second.isFinite = true)

include finite finite'

theorem lowerOf_eq : (lowerOf first second).isFinite = true ∧
    valueOf (lowerOf first second) = min (valueOf first) (valueOf second) := by
  rw [lowerOf]
  split
  · next less =>
    rw [lt_iff_valueOf finite' finite] at less
    exact ⟨finite', (min_eq_right less.le).symm⟩
  · next less =>
    rw [lt_iff_valueOf finite' finite, not_lt] at less
    exact ⟨finite, (min_eq_left less).symm⟩

theorem upperOf_eq : (upperOf first second).isFinite = true ∧
    valueOf (upperOf first second) = max (valueOf first) (valueOf second) := by
  rw [upperOf]
  split
  · next less =>
    rw [lt_iff_valueOf finite' finite] at less
    exact ⟨finite, (max_eq_left less.le).symm⟩
  · next less =>
    rw [lt_iff_valueOf finite' finite, not_lt] at less
    exact ⟨finite', (max_eq_right less).symm⟩

omit finite finite' in
theorem greatestBetween_lowerOf_upperOf (first second step : Float) :
    greatestBetween (lowerOf first second) (upperOf first second) step =
      greatestBetween first second step := by
  rw [greatestBetween, greatestBetween, lowerOf, upperOf]
  split
  · rw [max_comm |valueOf second|]
  · rfl

theorem roundTicks_eq (some : 0 < count) : roundTicks first second count =
    if first == second then [first]
    else if tickStep first second count == 0 then [lowerOf first second, upperOf first second]
    else ticksBetween (lowerOf first second) (upperOf first second)
      (tickStep first second count) := by
  have valid : ¬ (count = 0 ∨ (!first.isFinite) = true ∨ (!second.isFinite) = true) := by
    simp [finite, finite', some.ne']
  rw [roundTicks, if_neg valid]
  split
  · rfl
  · next differ =>
    rw [tickStep, if_neg differ]
    rfl

/-- **The ticks of an axis enclose its range, up to the rounding of doubles, as far as the limits on
their number let them.**  There are ticks, for at most ten thousand steps.  They start at the lower
end at most, up to two units, if the number of steps is finite, and end at the upper end at least,
up to twenty-two units, if moreover that number is within the limit.  If the ends themselves are the
ticks, nothing is rounded. -/
theorem roundTicks_enclose (some : 0 < count) :
    roundTicks first second count ≠ [] ∧
      (roundTicks first second count).length ≤ 10001 ∧
      ((tickStep first second count == 0) = true ∨
          (tickSteps first second count).isFinite = true →
        StartsAtMost (roundTicks first second count)
          (min (valueOf first) (valueOf second) + 2 * tickUnit first second count)) ∧
      ((tickStep first second count == 0) = true ∨
          (tickSteps first second count).isFinite = true ∧
            wholePart (tickSteps first second count) ≤ 10000 →
        EndsAtLeast (roundTicks first second count)
          (max (valueOf first) (valueOf second) - 22 * tickUnit first second count)) := by
  obtain ⟨lowFinite, lowValue⟩ := lowerOf_eq finite finite'
  obtain ⟨highFinite, highValue⟩ := upperOf_eq finite finite'
  rw [roundTicks_eq finite finite' some, tickUnit]
  by_cases same : (first == second) = true
  · have zero : (tickStep first second count == 0) = true := by
      rw [tickStep, if_pos same]
      rfl
    have equal := (beq_iff_valueOf finite finite').mp same
    rw [if_pos same, if_pos zero, ← equal, min_self, max_self, mul_zero, mul_zero, add_zero,
      sub_zero]
    exact ⟨nofun, by simp, fun _ => ⟨first, rfl, finite, le_rfl⟩,
      fun _ => ⟨first, rfl, .inr ⟨finite, le_rfl⟩⟩⟩
  · rw [if_neg same]
    by_cases zero : (tickStep first second count == 0) = true
    · rw [if_pos zero, if_pos zero, mul_zero, mul_zero, add_zero, sub_zero]
      exact ⟨nofun, by simp, fun _ => ⟨_, rfl, lowFinite, lowValue.le⟩,
        fun _ => ⟨_, rfl, .inr ⟨highFinite, highValue.ge⟩⟩⟩
    · have unsigned : isUnsigned (tickStep first second count).toModel.unpack = true := by
        rw [tickStep, if_neg same]
        exact isUnsigned_roundStep _
      have spaced (steps : (tickSteps first second count).isFinite = true) :=
        spaced_of_isFinite lowFinite highFinite unsigned zero steps
      rw [if_neg zero, if_neg zero, ← greatestBetween_lowerOf_upperOf, ← lowValue, ← highValue]
      refine ⟨ticksBetween_ne_nil _ _ _, length_ticksBetween_le _ _ _, ?_, ?_⟩
      · rintro (step | steps)
        · exact absurd step zero
        · exact (spaced steps).startsAtMost
      · rintro (step | ⟨steps, few⟩)
        · exact absurd step zero
        · exact (spaced steps).endsAtLeast steps few

end Axes

/-- From 95 down to zero there are five steps. -/
theorem roundTicks_enclose_of_ninetyFive :
    (95 : Float).isFinite = true ∧ (0 : Float).isFinite = true ∧ 0 < 5 ∧
      (tickSteps 95 0 5).isFinite = true ∧ wholePart (tickSteps 95 0 5) ≤ 10000 ∧
      StartsAtMost (roundTicks 95 0 5) (min (valueOf 95) (valueOf 0) + 2 * tickUnit 95 0 5) ∧
      EndsAtLeast (roundTicks 95 0 5) (max (valueOf 95) (valueOf 0) - 22 * tickUnit 95 0 5) := by
  have steps : (tickSteps 95 0 5).isFinite = true := by decide +kernel
  have few : wholePart (tickSteps 95 0 5) ≤ 10000 := by decide +kernel
  obtain ⟨-, -, starts, ends⟩ := @roundTicks_enclose 95 0 5 (by decide) (by decide) (by decide)
  exact ⟨by decide, by decide, by decide, steps, few, starts (.inr steps), ends (.inr ⟨steps, few⟩)⟩

/-- Ticks whose last one is less than a value do not reach it. -/
theorem not_endsAtLeast {ticks : List Float} {value : Float} (other : ℚ)
    (finite : value.isFinite = true)
    (short : (ticks.getLast?.all fun tick => tick.isFinite && tick < value) = true) :
    ¬ EndsAtLeast ticks (max other (valueOf value)) := by
  rintro ⟨tick, last, reaches⟩
  rw [last, Option.all_some, Bool.and_eq_true, decide_eq_true_iff] at short
  obtain ⟨finite', less⟩ := short
  rw [lt_iff_valueOf finite' finite] at less
  rcases reaches with infinite | ⟨-, reaches⟩
  · exact absurd (isFinite_iff.mp finite') (by simp [infinite])
  · exact absurd ((le_max_right _ _).trans reaches) less.not_ge

/-- An axis that needs one step more than it may have ends one step short of its range, one whose
upper end is infinite has its first tick only, and where dividing by the step and multiplying back
leave a double above the lower end, the first tick is above it. -/
theorem roundTicks_not_enclose :
    ¬ EndsAtLeast (roundTicks 0 10001 10001) (max (valueOf 0) (valueOf 10001)) ∧
      ¬ EndsAtLeast (roundTicks 0 1.7e308 5) (max (valueOf 0) (valueOf 1.7e308)) ∧
      ¬ StartsAtMost (roundTicks 184.2 184.3608 5) (min (valueOf 184.2) (valueOf 184.3608)) := by
  refine ⟨not_endsAtLeast _ (by decide) ?_, not_endsAtLeast _ (by decide +kernel) ?_, ?_⟩
  · have differ : ¬ ((0 : Float) == 10001) = true := by decide +kernel
    have step : ¬ (tickStep 0 10001 10001 == 0) = true := by decide +kernel
    rw [roundTicks_eq (by decide) (by decide) (by decide), if_neg differ, if_neg step,
      getLast?_ticksBetween]
    decide +kernel
  · decide +kernel
  · have above : ((roundTicks 184.2 184.3608 5).head?.all fun tick => 184.2 < tick) = true := by
      decide +kernel
    rintro ⟨tick, first, finite, low⟩
    rw [first, Option.all_some, decide_eq_true_iff, lt_iff_valueOf (by decide) finite] at above
    exact absurd (low.trans (min_le_left _ _)) above.not_ge

end ChartCompiler
