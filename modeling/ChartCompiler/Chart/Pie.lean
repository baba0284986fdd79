import ChartCompiler.Axis.Frame
import ChartCompiler.Ledger

/-!
# Pies

The values of each name are added up; names whose sum is not positive are left out, and the others
become slices, the largest first.  When there are more slices than allowed, the smallest ones are
folded into one slice, so that exactly the allowed number is left.
-/

set_option autoImplicit false

namespace ChartCompiler.Pie

variable {α : Type} [Quantity α]

/-- A slice. -/
structure Slice (α : Type) where
  /-- The name. -/
  name : String
  /-- The value. -/
  value : α

/-- The slices of a pie and their total. -/
structure Data (α : Type) where
  /-- The slices, the largest first; a folded slice stands at the end. -/
  slices : List (Slice α)
  /-- The sum of all slices. -/
  total : α

/-- The name of the slice that others are folded into. -/
def foldedName : String := "Other"

/-- The fields of name and value. -/
def fields? (rows : List Record) (config : Config) : Option (String × String) := do
  let name ← findField rows (config.nameField.or config.xField) categoryNames
  let value ← findField rows (config.valueField.or config.yField) valueNames
  return (name, value)

/-- The sum of the values of each name, in the order in which the names first come up.  A value
that does not read as a number counts as zero. -/
def sums (nameField valueField : String) (rows : List Record) : List (Slice α) :=
  let accounts := rows.foldl
    (fun accounts row =>
      match row.label? nameField with
      | none => accounts
      | some name =>
        let value := ((row.number? valueField).map Quantity.ofFloat).getD Quantity.zero
        book name Quantity.zero (· + value) accounts)
    ([] : List (String × α))
  accounts.map fun (name, value) => { name, value }

/-- The positive slices, the largest first. -/
def ranked (slices : List (Slice α)) : List (Slice α) :=
  let positive := slices.filter fun slice => decide (Quantity.zero < slice.value)
  positive.mergeSort fun left right => Quantity.totalLE right.value left.value

/-- Folds the smallest slices into one so that at most `limit` remain; a limit of zero is none. -/
def fold (limit : Option Nat) (slices : List (Slice α)) : List (Slice α) :=
  match limit with
  | none => slices
  | some limit =>
    if 0 < limit ∧ limit < slices.length then
      let tail := (slices.drop (limit - 1)).map (·.value)
      slices.take (limit - 1) ++ [{ name := foldedName, value := Quantity.sum tail }]
    else
      slices

/-- A pie without slices. -/
def empty : Data α := { slices := [], total := Quantity.zero }

/-- The pie of some records. -/
def ofRows (rows : List Record) (config : Config) : Data α :=
  match fields? rows config with
  | none => empty
  | some (nameField, valueField) =>
    let slices := fold config.pie.maxSlices (ranked (sums nameField valueField rows))
    { slices, total := Quantity.sum (slices.map (·.value)) }

/-! ## The option -/

/-- The option of a slice. -/
def item (writer : TooltipWriter) (total : Float) (slice : Slice Float) (color : String) : Json :=
  let lines :=
    [ ("Value", writer.formatter.tooltip slice.value),
      ("Share", shareText (slice.value / total * 100)) ]
  .record
    [ ("name", slice.name),
      ("value", .ofFloat slice.value),
      ("itemStyle", .record [("color", color)]),
      ("tooltip", formatted (writer.item slice.name (some color) lines)) ]

/-- The option of a pie, if it has anything to show. -/
def option? (data : Data Float) (config : Config) (dark : Bool) : Option Json :=
  if data.slices.isEmpty || data.total ≤ 0 then none
  else
    let writer := TooltipWriter.forMode (ValueFormatter.ofConfig config) dark
    let colors := config.seriesColors data.slices.length dark
    let legend : Legend :=
      { entries := List.zipWith (fun slice color => LegendEntry.swatch slice.name color)
          data.slices colors }
    let radius : Json :=
      if config.pie.donut then .strings ["45%", "70%"] else .array [0, "70%"]
    some <| .record
      [ ("backgroundColor", "transparent"),
        ("color", .strings colors),
        ("legend", legend.toJson dark),
        ("tooltip", itemTooltip dark),
        ("series", .array
          [ .record
            [ ("type", "pie"),
              ("radius", radius),
              ("center", .strings ["50%", "55%"]),
              ("avoidLabelOverlap", true),
              ("label", .record
                [ ("show", config.showLabels),
                  ("formatter", "\x7bb\x7d: \x7bd\x7d%") ]),
              ("itemStyle", .record
                [ ("borderWidth", 1),
                  ("borderColor", if dark then "#111827" else "#ffffff") ]),
              ("data", .array (List.zipWith (item writer data.total) data.slices colors)) ] ]) ]

end ChartCompiler.Pie
