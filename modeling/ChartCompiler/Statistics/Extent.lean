import ChartCompiler.Number.Quantity

/-!
# Extents, percentiles and bounds

The extent of some values is the least range that holds the finite ones.  A percentile interpolates
between the two nearest ranks of an ascending list.  Bounds by percentiles leave outliers outside,
and fall back to the extent when both percentiles meet in one value.
-/

set_option autoImplicit false

namespace ChartCompiler

/-- A closed range of values. -/
structure Extent (α : Type) where
  /-- The smallest value. -/
  min : α
  /-- The largest value. -/
  max : α
  deriving DecidableEq, Repr

variable {α : Type} [Quantity α]

namespace Extent

/-- Widens an extent to hold one more value. -/
def widen (extent : Extent α) (value : α) : Extent α :=
  { min := Quantity.least extent.min value, max := Quantity.greatest extent.max value }

/-- Widens a possibly empty extent by a finite value; other values are passed over. -/
def step (extent : Option (Extent α)) (value : α) : Option (Extent α) :=
  if Quantity.isFinite value then
    match extent with
    | none => some { min := value, max := value }
    | some extent => some (extent.widen value)
  else
    extent

/-- The extent of the finite values, if there are any. -/
def of (values : List α) : Option (Extent α) :=
  values.foldl step none

/-- The width of an extent. -/
def span (extent : Extent α) : α :=
  extent.max - extent.min

/-- The least extent around a center that holds an extent. -/
def centeredOn (extent : Extent α) (center : α) : Extent α :=
  let above := Quantity.abs (extent.max - center)
  let below := Quantity.abs (center - extent.min)
  let spread := Quantity.greatest above below
  { min := center - spread, max := center + spread }

/-- Widens an extent to hold zero. -/
def withZero (extent : Extent α) : Extent α :=
  extent.widen Quantity.zero

end Extent

/-- The value at a rank, interpolated between the two nearest ranks. -/
def atRank (values : List α) (rank : α) : Option α :=
  let lower := Quantity.floor rank
  let upper := Quantity.ceil rank
  match values[Quantity.toNat lower]?, values[Quantity.toNat upper]? with
  | some low, some high => some (low + (high - low) * (rank - lower))
  | _, _ => values.getLast?

/-- The percentile of an ascending list: the value at its rank. -/
def percentile (sorted : List α) (percent : α) : Option α :=
  match sorted with
  | [] => none
  | [only] => some only
  | first :: rest =>
    let hundred : α := Quantity.ofNat 100
    let share := Quantity.clamp Quantity.zero hundred percent / hundred
    atRank (first :: rest) (share * Quantity.ofNat rest.length)

/-- The finite values in ascending order. -/
def sortedFinite (values : List α) : List α :=
  Quantity.ascending (values.filter Quantity.isFinite)

/-- The bounds between two values, or the extent of the values when the two do not spread. -/
def boundsBetween (sorted : List α) : Option α → Option α → Option (Extent α)
  | some low, some high =>
    if low < high then some { min := low, max := high } else Extent.of sorted
  | _, _ => none

/-- The bounds between two percentiles of the finite values. -/
def percentileBounds (values : List α) (lower upper : α) : Option (Extent α) :=
  let sorted := sortedFinite values
  boundsBetween sorted (percentile sorted lower) (percentile sorted upper)

end ChartCompiler
