import ChartCompiler.Chart.Kind
import ChartCompiler.Json.Value

/-!
# Samples

A small set of rows for each kind of chart, with a configuration that shows what the kind can do.
Bars, lines, areas and radars share one set of rows; only the area is stacked.
-/

set_option autoImplicit false

namespace ChartCompiler

/-- The input of a chart: its rows and its configuration. -/
structure Sample where
  /-- The rows. -/
  rows : Json
  /-- The configuration. -/
  config : Json

namespace Sample

/-- Rows with the same fields, given by their cells in the order of the fields. -/
def table (fields : List String) (rows : List (List Json)) : Json :=
  .array (rows.map fun cells => .record (fields.zip cells))

/-- Values of two series in three weeks. -/
def weekly (stacked : Bool) : Sample :=
  { rows := table ["date", "chain", "value"]
      [ ["2025-01-06", "ethereum", 1250000],
        ["2025-01-06", "gnosis", 310000],
        ["2025-01-13", "ethereum", 1410000],
        ["2025-01-13", "gnosis", 295500],
        ["2025-01-20", "ethereum", 1330000],
        ["2025-01-20", "gnosis", 402250] ]
    config := .record
      [ ("seriesField", "chain"), ("stacked", stacked), ("format", "currency") ] }

/-- Values of five categories, one slice too many. -/
def slices : Sample :=
  { rows := table ["category", "value"]
      [ ["Safe", 420],
        ["EOA", 910],
        ["Module", 75],
        ["Relayer", 40],
        ["Other", 12] ]
    config := .record [("maxSlices", 4), ("donut", true)] }

/-- Five numbers of two categories. -/
def boxes : Sample :=
  { rows := table ["category", "min", "q1", "median", "q3", "max"]
      [ ["ethereum", .float 0.4, .float 1.2, .float 2.1, .float 3.8, .float 9.5],
        ["gnosis", .float 0.01, .float 0.02, .float 0.05, .float 0.09, .float 0.4] ]
    config := .record [("decimals", 2)] }

/-- Values by weekday and hour. -/
def cells : Sample :=
  { rows := table ["weekday", "hour", "value"]
      [ ["Mon", "00", 12],
        ["Mon", "12", 48],
        ["Tue", "00", 9],
        ["Tue", "12", 61] ]
    config := .record [("xField", "hour"), ("seriesField", "weekday")] }

/-- Flows, of which the last one closes a cycle. -/
def flows : Sample :=
  { rows := table ["source", "target", "value"]
      [ ["Bridge", "DEX", 80],
        ["DEX", "Lending", 35],
        ["DEX", "Wallets", 45],
        ["Lending", "Bridge", 5] ]
    config := .null }

/-- Paths of a hierarchy. -/
def paths : Sample :=
  { rows := table ["path", "value"]
      [ ["DeFi/DEX/Uniswap", 40],
        ["DeFi/DEX/Curve", 25],
        ["DeFi/Lending", 30],
        ["NFT", 5] ]
    config := .null }

/-- Words, two of which differ only in case and one of which is too short. -/
def words : Sample :=
  { rows := table ["word", "value"]
      [ ["bridge", 30],
        ["Gnosis", 22],
        ["gnosis", 8],
        ["safe", 17],
        ["to", 50] ]
    config := .record [("minWordLength", 3)] }

/-- Five quantiles in three weeks. -/
def bands : Sample :=
  { rows := table ["date", "p05", "p25", "p50", "p75", "p95"]
      [ ["2025-01-06", 1, 3, 5, 8, 14],
        ["2025-01-13", 2, 4, 6, 9, 15],
        ["2025-01-20", 1, 4, 7, 11, 19] ]
    config := .null }

/-- Transfers that start from a hub, and swaps in both directions, which have no token. -/
def transfers : Sample :=
  { rows := table ["source", "target", "kind", "value", "token"]
      [ ["treasury", "alice", "transfer", 120, "GNO"],
        ["treasury", "bob", "transfer", 45, "GNO"],
        ["alice", "bob", "swap", 30],
        ["bob", "alice", "swap", 12] ]
    config := .record
      [ ("edgeStyleField", "kind"), ("boundaryAnchorSources", .strings ["treasury"]) ] }

end Sample

/-- The sample of a kind. -/
def ChartKind.sample : ChartKind → Sample
  | bar => .weekly false
  | line => .weekly false
  | area => .weekly true
  | radar => .weekly false
  | pie => .slices
  | boxplot => .boxes
  | heatmap => .cells
  | sankey => .flows
  | sunburst => .paths
  | wordCloud => .words
  | quantileBands => .bands
  | network => .transfers

end ChartCompiler
