import ChartCompiler.Config.Basic
import ChartCompiler.Text.Blank

/-!
# Colors of series

Colors come from three sources: those configured for the series, those of the theme, and a built-in
palette.  When a source runs out the next one continues; only after all of them is the whole
sequence repeated from its start.
-/

set_option autoImplicit false

namespace ChartCompiler

/-- The built-in palette. -/
def builtInPalette : List String :=
  [ "#4F46E5", "#10B981", "#F59E0B", "#EF4444", "#8B5CF6", "#06B6D4", "#EC4899", "#84CC16",
    "#F97316", "#6366F1", "#14B8A6", "#EAB308", "#DC2626", "#A855F7", "#0EA5E9", "#D946EF",
    "#22C55E", "#FB923C", "#3B82F6", "#E11D48", "#65A30D", "#0891B2", "#C026D3", "#CA8A04" ]

/-- All colors in the order they are taken; blank ones are passed over. -/
def availableColors (explicit theme : List String) : List String :=
  (explicit ++ theme ++ builtInPalette).filter fun color =>
    !(Text.trimBlanks color.toList).isEmpty

/-- Exactly `count` colors from the available ones, repeated as often as needed. -/
def chooseColors (explicit theme : List String) (count : Nat) : List String :=
  let available := availableColors explicit theme
  (List.range count).map fun index => available.getD (index % available.length) ""

/-- The colors of a configuration's palette for a theme. -/
def Config.themeColors (config : Config) (dark : Bool) : List String :=
  match config.palette with
  | some palette => palette.forMode dark
  | none => []

/-- Exactly `count` colors for the series of a chart. -/
def Config.seriesColors (config : Config) (count : Nat) (dark : Bool) : List String :=
  chooseColors config.colors (config.themeColors dark) count

/-- The first color of a chart. -/
def Config.accent (config : Config) (dark : Bool) : String :=
  ((config.seriesColors 1 dark).head?).getD ""

end ChartCompiler
