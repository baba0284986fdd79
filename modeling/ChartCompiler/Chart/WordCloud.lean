import ChartCompiler.Axis.Frame
import ChartCompiler.Guide.Scale
import ChartCompiler.Ledger
import ChartCompiler.Text.Lowercase

/-!
# Word clouds

Words that differ only in case are one word, shown as it was first spelled.  Words that are too
short or whose values do not add up to something positive are left out, and of the others the
largest are kept.  The share of a word is relative to all words that were not left out, whether
they are kept or not.
-/

set_option autoImplicit false

namespace ChartCompiler.WordCloud

variable {α : Type} [Quantity α]

/-- A word. -/
structure Word (α : Type) where
  /-- The first spelling. -/
  text : String
  /-- The value. -/
  value : α
  /-- The percentage of the total. -/
  share : α

/-- The words of a cloud and their total. -/
structure Data (α : Type) where
  /-- The words that are kept, the largest first. -/
  words : List (Word α)
  /-- The sum of all words that were not left out. -/
  total : α

/-- The fields of word and value. -/
def fields? (rows : List Record) (config : Config) : Option (String × Option String) := do
  let word ← findField rows (config.wordCloud.wordField.or config.xField)
    ["word", "text", "token", "term", "name", "label"]
  return (word, findField rows (config.valueField.or config.yField) valueNames)

/-- The word and the value of a row: nothing without a word that is long enough.  Without a value
field each row counts one; a value that does not read as a number counts as zero. -/
def mention? (minLength : Nat) (wordField : String) (valueField : Option String) (row : Record) :
    Option (String × α) := do
  let text ← row.label? wordField
  if text.length < minLength then none
  else
    match valueField with
    | none => some (text, Quantity.ofNat 1)
    | some field => some (text, ((row.number? field).map Quantity.ofFloat).getD Quantity.zero)

/-- The sum of the values of each word, with its first spelling. -/
def sums (entries : List (String × α)) : List (String × α) :=
  let accounts := entries.foldl
    (fun accounts (text, value) =>
      book (Text.lowercase text) (text, Quantity.zero)
        (fun (spelling, sum) => (spelling, sum + value)) accounts)
    ([] : List (String × (String × α)))
  accounts.map (·.2)

/-- The cloud of some words with their sums. -/
def ofSums (maxWords : Nat) (sums : List (String × α)) : Data α :=
  let positive := sums.filter fun (_, value) => decide (Quantity.zero < value)
  let total := Quantity.sum (positive.map (·.2))
  let ranked := positive.mergeSort fun left right => Quantity.totalLE right.2 left.2
  { words := (ranked.take maxWords).map fun (text, value) =>
      { text, value, share := value / total * Quantity.ofNat 100 }
    total }

/-- The cloud of some entries. -/
def ofEntries (maxWords : Nat) (entries : List (String × α)) : Data α :=
  ofSums maxWords (sums entries)

/-- The cloud of some records. -/
def ofRows (rows : List Record) (config : Config) : Data α :=
  match fields? rows config with
  | none => { words := [], total := Quantity.zero }
  | some (wordField, valueField) =>
    ofEntries config.wordCloud.maxWords
      (rows.filterMap (mention? config.wordCloud.minWordLength wordField valueField))

/-- The notices of `ofRows`. -/
def notices (rows : List Record) (config : Config) : List Notice :=
  match fields? rows config with
  | none => []
  | some _ =>
    let kept := (ofRows rows config : Data Float).words.length
    [.trace ("wordcloud: kept " ++ naturalText kept ++ " words")]

/-! ## The option -/

/-- The option of a word. -/
def item (writer : TooltipWriter) (word : Word Float) (color : String) (size : Float) : Json :=
  let lines :=
    [ ("Value", writer.formatter.tooltip word.value), ("Share", shareText word.share) ]
  .record
    [ ("name", word.text),
      ("value", .ofFloat word.value),
      ("textStyle", .record [("color", color), ("fontSize", .ofFloat size)]),
      ("tooltip", formatted (writer.item word.text (some color) lines)) ]

/-- The scale of sizes for words from the smallest to the largest value. -/
def fontScale (options : WordCloudOptions) (smallest largest : Float) : Scale Float :=
  { domainStart := smallest
    domainEnd := largest
    rangeStart := options.minFontSize
    rangeEnd := options.maxFontSize }

/-- The size of a word among words from the smallest to the largest value.  When all words are
equal, they are drawn as large as possible. -/
def fontSize (options : WordCloudOptions) (smallest largest value : Float) : Float :=
  if smallest < largest then (fontScale options smallest largest).map value
  else options.maxFontSize

/-- The colors of some words: at most one for each, and no more than the built-in palette has. -/
def wordColors (data : Data Float) (config : Config) (dark : Bool) : List String :=
  config.seriesColors (min data.words.length 24) dark

/-- The option of a word cloud around its words. -/
def around (items : List Json) (config : Config) (dark : Bool) : Json :=
  let options := config.wordCloud
  .record
    [ ("backgroundColor", "transparent"),
      ("tooltip", itemTooltip dark),
      ("series", .array
        [ .record
          [ ("type", "wordCloud"),
            ("shape", "circle"),
            ("left", "center"),
            ("top", "center"),
            ("width", "95%"),
            ("height", "95%"),
            ("sizeRange", .array
              [ .ofFloat options.minFontSize, .ofFloat options.maxFontSize ]),
            ("rotationRange", .array [0, 0]),
            ("gridSize", if config.isExpanded then 10 else 6),
            ("drawOutOfBound", false),
            ("data", .array items) ] ]) ]

/-- The option of a word cloud, if there is anything to show. -/
def option? (data : Data Float) (config : Config) (dark : Bool) : Option Json :=
  match data.words.head?, data.words.getLast? with
  | some largest, some smallest =>
    let writer := TooltipWriter.forMode (ValueFormatter.ofConfig config) dark
    let colors := wordColors data config dark
    let items := data.words.zipIdx.map fun (word, index) =>
      item writer word (colors.getD (index % colors.length) "")
        (fontSize config.wordCloud smallest.value largest.value word.value)
    some (around items config dark)
  | _, _ => none

end ChartCompiler.WordCloud
