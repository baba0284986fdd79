import ChartCompiler.Number.Quantity

/-!
# Scales

Size, width and font are drawn in proportion to values.  A scale maps a domain of values to a range
of sizes and stops at both ends, so an outlier is drawn as large as the largest mark and no larger.
On the root scale the area of a mark, not its length, follows the value.
-/

set_option autoImplicit false

namespace ChartCompiler

variable {α : Type} [Quantity α]

/-- A mapping from a domain to a range. -/
structure Scale (α : Type) where
  /-- The start of the domain. -/
  domainStart : α
  /-- The end of the domain. -/
  domainEnd : α
  /-- The start of the range. -/
  rangeStart : α
  /-- The end of the range. -/
  rangeEnd : α

namespace Scale

/-- How far a value lies within the domain, from zero to one.  A domain without width counts every
value as its start, and so does a value that is not finite. -/
def normalize (scale : Scale α) (value : α) : α :=
  let width := scale.domainEnd - scale.domainStart
  let flat := width ≤ Quantity.zero ∧ Quantity.zero ≤ width
  if flat ∨ !Quantity.isFinite width ∨ !Quantity.isFinite value then Quantity.zero
  else
    Quantity.clamp Quantity.zero (Quantity.ofNat 1) ((value - scale.domainStart) / width)

/-- Maps a value into the range. -/
def map (scale : Scale α) (value : α) : α :=
  scale.rangeStart + scale.normalize value * (scale.rangeEnd - scale.rangeStart)

end Scale

/-- The square root of a value; negative values count as zero. -/
def positiveRoot (value : α) : α :=
  Quantity.sqrt (Quantity.greatest value Quantity.zero)

/-- A scale that follows the square roots of values. -/
structure RootScale (α : Type) where
  /-- The scale between the roots. -/
  inner : Scale α

namespace RootScale

/-- The root scale from a domain to a range. -/
def of (scale : Scale α) : RootScale α :=
  { inner :=
      { scale with
        domainStart := positiveRoot scale.domainStart
        domainEnd := positiveRoot scale.domainEnd } }

/-- How far the root of a value lies within the roots of the domain. -/
def normalize (scale : RootScale α) (value : α) : α :=
  scale.inner.normalize (positiveRoot value)

/-- Maps a value into the range. -/
def map (scale : RootScale α) (value : α) : α :=
  scale.inner.map (positiveRoot value)

end RootScale

end ChartCompiler
