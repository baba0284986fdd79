import ChartCompiler.Json.Reader
import ChartCompiler.Main
import ChartCompiler.Proofs.Ledger
import ChartCompiler.Proofs.Sankey.Search
import ChartCompiler.Proofs.Sankey.Cycles
import ChartCompiler.Proofs.Sankey.Moments
import ChartCompiler.Proofs.Network.Merging
import ChartCompiler.Proofs.Network.Totals
import ChartCompiler.Proofs.Pivot.Tally
import ChartCompiler.Proofs.Pivot.Table
import ChartCompiler.Proofs.Pivot.Counters
import ChartCompiler.Proofs.Network.Identity
import ChartCompiler.Proofs.Compile.Bystander
import ChartCompiler.Proofs.Compile.Alignment
import ChartCompiler.Proofs.Checked.Compile
import ChartCompiler.Proofs.Network.Selection
import ChartCompiler.Proofs.Time.Reading
import ChartCompiler.Proofs.Sunburst.Paths
import ChartCompiler.Proofs.Time.Labels
import ChartCompiler.Proofs.Sunburst.Forest
import ChartCompiler.Proofs.Sunburst.Totals
import ChartCompiler.Proofs.Config.Reading
import ChartCompiler.Proofs.Guide.Tooltip
import ChartCompiler.Proofs.Axis.Categories
import ChartCompiler.Proofs.Axis.RowOrder
import ChartCompiler.Proofs.Time.Moment
import ChartCompiler.Proofs.Time.Stamp
import ChartCompiler.Proofs.Compile.Overrides
import ChartCompiler.Proofs.Network.Legends
import ChartCompiler.Proofs.Sankey.Totals
import ChartCompiler.Proofs.Pivot.Rearrangement
import ChartCompiler.Proofs.Network.Curvature
import ChartCompiler.Proofs.Sunburst.Emission
import ChartCompiler.Proofs.Network.Anchoring
import ChartCompiler.Proofs.Guide.Scale
import ChartCompiler.Proofs.Network.Widths
import ChartCompiler.Proofs.Time.TextOrder
import ChartCompiler.Proofs.Network.Dates
import ChartCompiler.Proofs.Chart.Pie
import ChartCompiler.Proofs.Chart.WordCloud
import ChartCompiler.Proofs.Chart.Quantiles
import ChartCompiler.Proofs.Json.Layers
import ChartCompiler.Proofs.Json.Reading
import ChartCompiler.Proofs.Axis.Roles
import ChartCompiler.Proofs.Chart.ColorScale
import ChartCompiler.Proofs.Axis.Ranges
import ChartCompiler.Proofs.Format.ShortLabels
import ChartCompiler.Proofs.Format.Signs
import ChartCompiler.Proofs.Guide.Ticks
import ChartCompiler.Proofs.Format.ReadBack
import ChartCompiler.Proofs.Time.Epochs
