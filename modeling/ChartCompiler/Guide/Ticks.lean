import ChartCompiler.Number.Logarithm
import ChartCompiler.Number.Quantity

/-!
# Ticks on round numbers

A value axis is divided at multiples of a round step: one, two, five or ten times a power of ten.
The power is read off the decimal logarithm of the raw step as a double holds it, so a step that
lies below a power of ten by less than that logarithm can tell already counts as that power.  Both
ends of the axis are moved outward to multiples of the step.
-/

set_option autoImplicit false

namespace ChartCompiler

/-- The double that stands for a power of ten: the nearest one, except for two powers that lie next
to the middle between two doubles, where it is the upper one. -/
def powerOfTen (exponent : Int) : Float :=
  if exponent = 23 ∨ exponent = 210 then
    Float.ofBits ((Float.ofScientific 1 false exponent.natAbs).toBits + 1)
  else
    Float.ofScientific 1 (decide (exponent < 0)) exponent.natAbs

/-- The whole part, rounded down, of the logarithm to base ten of a positive double. -/
def roundedExponent (value : Float) : Int :=
  let whole := floorOf (decimalLogarithm value)
  if whole < 0 then -(wholePart (-whole) : Int) else wholePart whole

/-- The round step nearest a raw step; zero when the raw step is not positive. -/
def roundStep (raw : Float) : Float :=
  if raw.isFinite && 0 < raw then
    let base := powerOfTen (roundedExponent raw)
    let multiple := raw / base
    let factor : Float :=
      if 7.5 ≤ multiple then 10 else if 3.5 ≤ multiple then 5 else if 1.5 ≤ multiple then 2 else 1
    factor * base
  else
    0

/-- The greatest number of steps on an axis. -/
def stepLimit : Nat := 10000

/-- The ticks from a lower to a higher value at multiples of a step. -/
def ticksBetween (low high step : Float) : List Float :=
  let start := floorOf (low / step) * step
  let stop := ceilOf (high / step) * step
  let steps := roundOf ((stop - start) / step)
  let count := if steps.isFinite then min (wholePart steps) stepLimit else 0
  (List.range (count + 1)).map fun index => start + step * Float.ofNat index

/-- The ticks of an axis that covers two values in about `count` steps. -/
def roundTicks (first second : Float) (count : Nat) : List Float :=
  if count = 0 ∨ !first.isFinite ∨ !second.isFinite then []
  else if first == second then [first]
  else
    let low := if second < first then second else first
    let high := if second < first then first else second
    let step := roundStep ((high - low) / Float.ofNat count)
    if step == 0 then [low, high] else ticksBetween low high step

end ChartCompiler
