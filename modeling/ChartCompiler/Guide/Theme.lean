import ChartCompiler.Number.Quantity

/-!
# Colors and themes

A theme is the set of colors that guides and texts are drawn in; there is a light one and a dark
one.  Charts carry colors as text: six hexadecimal digits for an opaque color, the word
`transparent` for an invisible one, and the four channels for everything between.
-/

set_option autoImplicit false

namespace ChartCompiler

/-- A color: three channels and an opacity, each below 256. -/
structure Color where
  /-- The red channel. -/
  red : Nat
  /-- The green channel. -/
  green : Nat
  /-- The blue channel. -/
  blue : Nat
  /-- The opacity; 255 is opaque. -/
  alpha : Nat := 255
  deriving DecidableEq, Repr

namespace Color

/-- The invisible color. -/
def transparent : Color := { red := 0, green := 0, blue := 0, alpha := 0 }

/-- The hexadecimal digit of a number below sixteen. -/
def hexDigit (number : Nat) : Char :=
  if number < 10 then Char.ofNat (48 + number) else Char.ofNat (87 + number)

/-- A channel as two hexadecimal digits. -/
def channelText (channel : Nat) : List Char :=
  [hexDigit (channel / 16), hexDigit (channel % 16)]

/-- The text of a color in a style sheet. -/
def css (color : Color) : String :=
  if color.alpha = 255 then
    String.ofList ('#' :: (channelText color.red ++ channelText color.green ++
      channelText color.blue))
  else if color.alpha = 0 then "transparent"
  else
    "rgba(" ++ naturalText color.red ++ ", " ++ naturalText color.green ++ ", " ++
      naturalText color.blue ++ ", " ++
      Quantity.fixedText 2 (Float.ofNat color.alpha / 255) ++ ")"

end Color

/-- The colors of guides and texts. -/
structure Theme where
  /-- Whether this is the dark theme. -/
  dark : Bool
  /-- Titles and labels. -/
  text : Color
  /-- Axis labels and other secondary text. -/
  mutedText : Color
  /-- The line of an axis. -/
  axisLine : Color
  /-- The lines of the grid. -/
  splitLine : Color
  /-- The fill of a tooltip. -/
  tooltipBackground : Color
  /-- The border of a tooltip. -/
  tooltipBorder : Color
  /-- The ground of the chart. -/
  background : Color
  deriving DecidableEq, Repr

namespace Theme

/-- The light theme. -/
def light : Theme :=
  { dark := false
    text := ⟨0x1F, 0x29, 0x37, 255⟩
    mutedText := ⟨0x6B, 0x72, 0x80, 255⟩
    axisLine := ⟨0xD1, 0xD5, 0xDB, 255⟩
    splitLine := ⟨0xE5, 0xE7, 0xEB, 255⟩
    tooltipBackground := ⟨0xFF, 0xFF, 0xFF, 0xF2⟩
    tooltipBorder := ⟨0xE5, 0xE7, 0xEB, 255⟩
    background := .transparent }

/-- The dark theme. -/
def night : Theme :=
  { dark := true
    text := ⟨0xF3, 0xF4, 0xF6, 255⟩
    mutedText := ⟨0x9C, 0xA3, 0xAF, 255⟩
    axisLine := ⟨0x4B, 0x55, 0x63, 255⟩
    splitLine := ⟨0x37, 0x41, 0x51, 255⟩
    tooltipBackground := ⟨0x1F, 0x29, 0x37, 0xF2⟩
    tooltipBorder := ⟨0x37, 0x41, 0x51, 255⟩
    background := .transparent }

/-- The theme for a dark-mode flag. -/
def forMode (dark : Bool) : Theme :=
  if dark then night else light

end Theme

end ChartCompiler
