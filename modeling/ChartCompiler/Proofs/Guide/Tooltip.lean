import ChartCompiler.Guide.Tooltip
import ChartCompiler.Proofs.Format.GroupedText

/-!
# Texts in tooltips stay texts

The markup of a tooltip consists of templates with texts put in, and the texts come from data, so
they can be anything.  Escaping takes every delimiter of markup out of a text, and leaves no
ampersand that does not start an entity; reading the entities gives the text back
(`unescape_escape`).

The delimiters of a tooltip are therefore those of its templates.  They are the same for any texts
(`skeleton_category`, `skeleton_item`), and depend on the values, which decide the order of the
lines, and on which lines have a marker.
-/

set_option autoImplicit false

namespace ChartCompiler

/-! ## Escaped texts -/

namespace Markup

/-- The characters that open and close tags and that quote attributes. -/
def delimiters : List Char :=
  "<>\"'".toList

/-- The delimiters in a text, in order. -/
def skeleton (text : String) : List Char :=
  text.toList.filter (· ∈ delimiters)

/-- The entities, each with the character that it stands for. -/
def entities : List (String × Char) :=
  [("&amp;", '&'), ("&lt;", '<'), ("&gt;", '>'), ("&quot;", Char.ofNat 0x22),
    ("&#39;", Char.ofNat 0x27)]

/-- Every ampersand of a text starts an entity. -/
def Referenced (text : String) : Prop :=
  ∀ rest, '&' :: rest <:+ text.toList → ∃ entity ∈ entities, entity.1.toList <+: '&' :: rest

/-- Characters with the entities among them read. -/
def unescapeChars : List Char → List Char
  | '&' :: 'a' :: 'm' :: 'p' :: ';' :: rest => '&' :: unescapeChars rest
  | '&' :: 'l' :: 't' :: ';' :: rest => '<' :: unescapeChars rest
  | '&' :: 'g' :: 't' :: ';' :: rest => '>' :: unescapeChars rest
  | '&' :: 'q' :: 'u' :: 'o' :: 't' :: ';' :: rest => Char.ofNat 0x22 :: unescapeChars rest
  | '&' :: '#' :: '3' :: '9' :: ';' :: rest => Char.ofNat 0x27 :: unescapeChars rest
  | character :: rest => character :: unescapeChars rest
  | [] => []

/-- A text with the entities in it read. -/
def unescape (text : String) : String :=
  String.ofList (unescapeChars text.toList)

/-! ### Characters -/

theorem escapeChar_entity : ∀ entity ∈ entities, escapeChar entity.2 = entity.1.toList := by
  decide

theorem escapeChar_of_not_mem {character : Char} (plain : character ∉ '&' :: delimiters) :
    escapeChar character = [character] := by
  have other {code : Nat} (listed : Char.ofNat code ∈ '&' :: delimiters) :
      character.toNat ≠ code := by
    rintro rfl
    rw [Char.ofNat_toNat] at listed
    exact plain listed
  rw [escapeChar, if_neg (other (by decide)), if_neg (other (by decide)),
    if_neg (other (by decide)), if_neg (other (by decide)), if_neg (other (by decide))]

/-- A character is written as an entity, or it is no ampersand and no delimiter and is written as it
is. -/
theorem escapeChar_cases (character : Char) :
    (∃ entity ∈ entities, entity.2 = character ∧ escapeChar character = entity.1.toList) ∨
      (character ∉ '&' :: delimiters ∧ escapeChar character = [character]) := by
  by_cases special : character ∈ '&' :: delimiters
  · have named : '&' :: delimiters ⊆ entities.map (·.2) := by decide
    obtain ⟨entity, listed, rfl⟩ := List.mem_map.mp (named special)
    exact .inl ⟨entity, listed, rfl, escapeChar_entity entity listed⟩
  · exact .inr ⟨special, escapeChar_of_not_mem special⟩

/-! ### Reading back -/

theorem unescapeChars_entity : ∀ entity ∈ entities, ∀ rest,
    unescapeChars (entity.1.toList ++ rest) = entity.2 :: unescapeChars rest := by
  simp only [entities, List.forall_mem_cons, List.not_mem_nil, false_implies, implies_true,
    and_true]
  exact ⟨fun _ => rfl, fun _ => rfl, fun _ => rfl, fun _ => rfl, fun _ => rfl⟩

theorem unescapeChars_of_ne {character : Char} (plain : character ≠ '&') (rest : List Char) :
    unescapeChars (character :: rest) = character :: unescapeChars rest := by
  rw [unescapeChars]
  all_goals
    intro _ ampersand
    exact absurd ampersand plain

theorem unescapeChars_flatMap (text : List Char) :
    unescapeChars (text.flatMap escapeChar) = text := by
  induction text with
  | nil => rfl
  | cons character rest ih =>
      rw [List.flatMap_cons]
      rcases escapeChar_cases character with ⟨entity, listed, rfl, written⟩ | ⟨plain, written⟩
      · rw [written, unescapeChars_entity entity listed, ih]
      · rw [written, List.singleton_append, unescapeChars_of_ne (List.ne_of_not_mem_cons plain), ih]

/-- Reading the entities of an escaped text gives the text back. -/
theorem unescape_escape (text : String) : unescape (escape text) = text := by
  rw [unescape, escape, String.toList_ofList, unescapeChars_flatMap, String.ofList_toList]

/-! ### Delimiters -/

@[simp] theorem skeleton_append (first second : String) :
    skeleton (first ++ second) = skeleton first ++ skeleton second := by
  rw [skeleton, String.toList_append, List.filter_append]
  rfl

theorem skeleton_join (texts : List String) :
    skeleton (String.join texts) = texts.flatMap skeleton := by
  rw [skeleton, String.toList_join, List.filter_flatMap]
  rfl

/-- When all texts have the same delimiters, only the number of texts counts. -/
theorem skeleton_join_map {β : Type} {items : List β} {markup : β → String} {shape : List Char}
    (alike : ∀ item ∈ items, skeleton (markup item) = shape) :
    skeleton (String.join (items.map markup)) = (List.replicate items.length shape).flatten := by
  rw [skeleton_join, List.flatMap_map, List.flatMap_def, List.map_eq_replicate_iff.mpr alike]

/-- An escaped text has no delimiters. -/
@[simp] theorem skeleton_escape (text : String) : skeleton (escape text) = [] := by
  rw [skeleton, escape, String.toList_ofList, List.filter_flatMap, List.flatMap_eq_nil_iff]
  intro character _
  rcases escapeChar_cases character with ⟨entity, listed, rfl, written⟩ | ⟨plain, written⟩
  · have free : ∀ entity ∈ entities, entity.1.toList.filter (· ∈ delimiters) = [] := by decide
    rw [written]
    exact free entity listed
  · have free : character ∉ delimiters := List.not_mem_of_not_mem_cons plain
    rw [written, List.filter_cons_of_neg (by simpa using free), List.filter_nil]

/-! ### Ampersands -/

theorem referenced_of_not_mem {text : String} (free : '&' ∉ text.toList) : Referenced text := by
  intro rest within
  exact absurd (within.subset List.mem_cons_self) free

theorem Referenced.append {first second : String} (referenced : Referenced first)
    (referenced' : Referenced second) : Referenced (first ++ second) := by
  rintro rest ⟨before, whole⟩
  rw [String.toList_append] at whole
  rcases List.append_eq_append_iff.mp whole with ⟨gap, start, later⟩ | ⟨gap, -, later⟩
  · cases gap with
    | nil => exact referenced' rest ⟨[], later⟩
    | cons ampersand tail =>
        obtain ⟨rfl, rfl⟩ := List.cons.inj later
        obtain ⟨entity, listed, starts⟩ := referenced tail ⟨before, start.symm⟩
        exact ⟨entity, listed, starts.trans (List.prefix_append _ _)⟩
  · exact referenced' rest ⟨gap, later.symm⟩

theorem referenced_join {texts : List String} (referenced : ∀ text ∈ texts, Referenced text) :
    Referenced (String.join texts) := by
  induction texts with
  | nil => exact referenced_of_not_mem (by simp [String.join])
  | cons text rest ih =>
      rw [List.forall_mem_cons] at referenced
      have joined : String.join (text :: rest) = text ++ String.join rest := by
        apply String.toList_injective
        simp
      rw [joined]
      exact referenced.1.append (ih referenced.2)

/-- An entity has an ampersand at its start only. -/
theorem referenced_entity {entity : String × Char} (listed : entity ∈ entities) :
    Referenced entity.1 := by
  have shape : ∀ entity ∈ entities, entity.1.toList.head? = some '&' ∧
      '&' ∉ entity.1.toList.tail := by
    decide
  obtain ⟨starts, free⟩ := shape entity listed
  obtain ⟨body, whole⟩ := List.head?_eq_some_iff.mp starts
  rw [whole, List.tail_cons] at free
  intro rest within
  rw [whole] at within
  rcases List.suffix_cons_iff.mp within with same | later
  · exact ⟨entity, listed, by rw [whole, same]⟩
  · exact absurd (later.subset List.mem_cons_self) free

theorem referenced_escape (text : String) : Referenced (escape text) := by
  have joined : escape text =
      String.join (text.toList.map fun character => String.ofList (escapeChar character)) := by
    apply String.toList_injective
    rw [escape, String.toList_ofList, String.toList_join, List.flatMap_map]
    simp
  rw [joined]
  refine referenced_join ?_
  intro part member
  obtain ⟨character, -, rfl⟩ := List.mem_map.mp member
  rcases escapeChar_cases character with ⟨entity, listed, rfl, written⟩ | ⟨plain, written⟩
  · rw [written, String.ofList_toList]
    exact referenced_entity listed
  · rw [written]
    refine referenced_of_not_mem ?_
    rw [String.toList_ofList, List.mem_singleton]
    exact (List.ne_of_not_mem_cons plain).symm

end Markup

/-! ## Numbers and colors -/

/-- A grouped number is written with digits, commas, a sign and a point. -/
theorem mem_toList_groupedText {α : Type} [Quantity α] {value : α} {places : Nat} {mark : Char}
    (member : mark ∈ (groupedText value places).toList) :
    mark ∈ "-,.".toList ∨ mark.isDigit = true := by
  rw [groupedText] at member
  split at member
  · simp only [String.toList_ofList, List.mem_append] at member
    rcases member with ((sign | whole) | point) | fraction
    · left
      split at sign
      · rw [List.mem_singleton.mp sign]
        decide
      · cases sign
    · rcases mem_of_mem_groupDigits whole with rfl | digit
      · exact .inl (by decide)
      · exact .inr (isDigit_of_mem_split (List.mem_append_left _ digit))
    · left
      split at point
      · cases point
      · rw [List.mem_singleton.mp point]
        decide
    · exact .inr (isDigit_of_mem_split
        (List.mem_append_right _ (mem_of_mem_dropTrailingZeros fraction)))
  · left
    have dash : mark ∈ ['-'] := member
    rw [List.mem_singleton.mp dash]
    decide

namespace Markup

theorem ne_ampersand_of_isDigit {mark : Char} (digit : mark.isDigit = true) : mark ≠ '&' := by
  rintro rfl
  exact absurd digit (by decide)

theorem ofNat_ne_ampersand {code : Nat} (other : code ≠ 0x26) : Char.ofNat code ≠ '&' := by
  by_cases valid : code.isValidChar
  · intro same
    have codes : (Char.ofNat code).toNat = code := by
      rw [Char.ofNat, dif_pos valid]
      rfl
    rw [same] at codes
    exact other codes.symm
  · rw [Char.ofNat, dif_neg valid]
    decide

theorem hexDigit_ne_ampersand (number : Nat) : Color.hexDigit number ≠ '&' := by
  rw [Color.hexDigit]
  split
  · exact ofNat_ne_ampersand (by omega)
  · exact ofNat_ne_ampersand (by omega)

theorem referenced_naturalText (number : Nat) : Referenced (naturalText number) := by
  refine referenced_of_not_mem fun member => ?_
  rw [toList_naturalText] at member
  exact ne_ampersand_of_isDigit (isDigit_of_mem_digitsOf member) rfl

theorem referenced_css (color : Color) : Referenced color.css := by
  rw [Color.css]
  split
  · refine referenced_of_not_mem ?_
    simp [Color.channelText, (hexDigit_ne_ampersand _).symm]
  · split
    · exact referenced_of_not_mem (by decide)
    · have separator : Referenced ", " := referenced_of_not_mem (by decide)
      have opacity : Referenced (Quantity.fixedText 2 (Float.ofNat color.alpha / 255)) := by
        refine referenced_of_not_mem fun member => ?_
        rcases mem_toList_placesText member with point | digit
        · exact absurd point (by decide)
        · exact ne_ampersand_of_isDigit digit rfl
      have opening : Referenced "rgba(" := referenced_of_not_mem (by decide)
      have closing : Referenced ")" := referenced_of_not_mem (by decide)
      exact (((((((opening.append (referenced_naturalText _)).append separator).append
        (referenced_naturalText _)).append separator).append
        (referenced_naturalText _)).append separator).append opacity).append closing

theorem referenced_affix {body : String} (referenced : Referenced body) (unit : ValueUnit)
    (negative : Bool) : Referenced (unit.affix negative body) := by
  have sign : Referenced (if negative then "-" else "") := by
    cases negative <;> exact referenced_of_not_mem (by decide)
  have leading : Referenced unit.leading := by
    cases unit <;> exact referenced_of_not_mem (by decide)
  have trailing : Referenced unit.trailing := by
    cases unit <;> exact referenced_of_not_mem (by decide)
  exact ((sign.append leading).append referenced).append trailing

theorem referenced_tooltip (formatter : ValueFormatter) (value : Float) :
    Referenced (formatter.tooltip value) := by
  rw [ValueFormatter.tooltip]
  split
  · refine referenced_affix (referenced_of_not_mem fun member => ?_) _ _
    rcases mem_toList_groupedText member with mark | digit
    · exact absurd mark (by decide)
    · exact ne_ampersand_of_isDigit digit rfl
  · exact referenced_of_not_mem (by decide)

end Markup

/-! ## Entries and lines -/

namespace TooltipEntry

/-- An entry without its texts: what is left of its color is that it has one. -/
def blank (entry : TooltipEntry) : TooltipEntry :=
  { entry with label := "", color := entry.color.map fun _ => "" }

/-- Texts do not matter for the order of entries. -/
theorem map_blank_mergeSort (entries : List TooltipEntry) :
    (entries.mergeSort descending).map blank = (entries.map blank).mergeSort descending :=
  List.map_mergeSort fun _ _ _ _ => rfl

end TooltipEntry

namespace TooltipWriter

open Markup TooltipEntry

variable (writer : TooltipWriter)

theorem skeleton_title (first second : String) :
    skeleton (writer.title first) = skeleton (writer.title second) := by
  unfold TooltipWriter.title
  simp only [skeleton_append, skeleton_escape]

theorem skeleton_marker {first second : Option String} (same : first.isSome = second.isSome) :
    skeleton (marker first) = skeleton (marker second) := by
  cases first <;> cases second
  · rfl
  · cases same
  · cases same
  · unfold marker
    simp only [skeleton_append, skeleton_escape]

/-- The delimiters of a line depend on whether it has a marker. -/
theorem skeleton_line {color color' : Option String} (same : color.isSome = color'.isSome)
    (label label' value value' : String) :
    skeleton (writer.line label color value) = skeleton (writer.line label' color' value') := by
  unfold line
  simp only [skeleton_append, skeleton_escape, skeleton_marker same]

/-- The delimiters of the tooltip of a category are those of the tooltip without texts. -/
theorem skeleton_category (title : String) (entries : List TooltipEntry) :
    skeleton (writer.category title entries) =
      skeleton (writer.category "" (entries.map blank)) := by
  have lines (shown : List TooltipEntry) :
      (shown.map fun entry =>
        writer.line entry.label entry.color (writer.valueText entry)).flatMap skeleton =
      ((shown.map blank).map fun entry =>
        writer.line entry.label entry.color (writer.valueText entry)).flatMap skeleton := by
    simp only [List.flatMap_map]
    refine List.flatMap_congr fun entry _ => writer.skeleton_line ?_ _ _ _ _
    exact Option.isSome_map.symm
  have total : writer.totalLine (entries.map blank) = writer.totalLine entries := by
    unfold totalLine
    rw [List.filterMap_map]
    rfl
  have ordered :
      (if writer.sortsEntries then (entries.map blank).mergeSort descending
        else entries.map blank) =
      (if writer.sortsEntries then entries.mergeSort descending else entries).map blank := by
    rw [apply_ite (List.map blank), map_blank_mergeSort]
  unfold category
  simp only [skeleton_append, skeleton_join, ordered, total, List.length_map,
    ← lines, writer.skeleton_title title ""]

/-- The delimiters of the tooltip of an item depend on the number of lines, and on whether they
have markers. -/
theorem skeleton_item {color color' : Option String} {lines lines' : List (String × String)}
    (sameColor : color.isSome = color'.isSome) (sameLength : lines.length = lines'.length)
    (title title' : String) :
    skeleton (writer.item title color lines) = skeleton (writer.item title' color' lines') := by
  have shown {color : Option String} (lines : List (String × String))
      (same : color.isSome = color'.isSome) :
      skeleton (String.join (lines.map fun entry => writer.line entry.1 color entry.2)) =
        (List.replicate lines.length (skeleton (writer.line "" color' ""))).flatten :=
    skeleton_join_map fun entry _ => writer.skeleton_line same _ _ _ _
  unfold item
  rw [skeleton_append, skeleton_append, writer.skeleton_title title title']
  refine congrArg (skeleton (writer.title title') ++ ·) ?_
  calc skeleton (String.join (lines.map fun entry => writer.line entry.1 color entry.2))
      = (List.replicate lines.length (skeleton (writer.line "" color' ""))).flatten :=
        shown lines sameColor
    _ = (List.replicate lines'.length (skeleton (writer.line "" color' ""))).flatten := by
        rw [sameLength]
    _ = skeleton (String.join (lines'.map fun entry => writer.line entry.1 color' entry.2)) :=
        (shown lines' rfl).symm

theorem referenced_title (text : String) : Referenced (writer.title text) := by
  unfold TooltipWriter.title
  refine .append (.append (.append (.append ?_ (referenced_css _)) ?_) (referenced_escape text)) ?_
  all_goals exact referenced_of_not_mem (by decide)

theorem referenced_marker (color : Option String) : Referenced (marker color) := by
  cases color with
  | none => exact referenced_of_not_mem (by decide)
  | some color =>
      unfold marker
      refine .append (.append ?_ (referenced_escape color)) ?_
      all_goals exact referenced_of_not_mem (by decide)

theorem referenced_line (label : String) (color : Option String) (value : String) :
    Referenced (writer.line label color value) := by
  unfold line
  refine .append (.append (.append (.append (.append (.append (.append (.append ?_
    (referenced_marker color)) ?_) (referenced_css _)) ?_) (referenced_escape label)) ?_)
    (referenced_escape value)) ?_
  all_goals exact referenced_of_not_mem (by decide)

theorem referenced_totalLine (entries : List TooltipEntry) :
    Referenced (writer.totalLine entries) := by
  unfold totalLine
  refine .append (.append (.append (.append ?_ (referenced_css _)) ?_)
    (referenced_tooltip writer.formatter _)) ?_
  all_goals exact referenced_of_not_mem (by decide)

theorem referenced_category (title : String) (entries : List TooltipEntry) :
    Referenced (writer.category title entries) := by
  have lines (shown : List TooltipEntry) :
      Referenced (String.join (shown.map fun entry =>
        writer.line entry.label entry.color (writer.valueText entry))) := by
    refine referenced_join fun line member => ?_
    obtain ⟨entry, -, rfl⟩ := List.mem_map.mp member
    exact writer.referenced_line _ _ _
  have total : Referenced (if writer.addsTotal then writer.totalLine entries else "") := by
    split
    · exact writer.referenced_totalLine entries
    · exact referenced_of_not_mem (by decide)
  unfold category
  refine .append (.append (.append (.append (.append (.append (writer.referenced_title title) ?_)
    (referenced_naturalText _)) ?_) (lines _)) ?_) total
  all_goals exact referenced_of_not_mem (by decide)

theorem referenced_item (title : String) (color : Option String) (lines : List (String × String)) :
    Referenced (writer.item title color lines) := by
  unfold item
  refine .append (writer.referenced_title title) (referenced_join fun line member => ?_)
  obtain ⟨entry, -, rfl⟩ := List.mem_map.mp member
  exact writer.referenced_line _ _ _

/-- **Texts in tooltips stay texts.**  Two tooltips of one writer that differ in texts only, with
the same values and the same lines colored, have the same delimiters in the same order; every
ampersand of a tooltip starts an entity; and reading the entities of an escaped text gives the text
back. -/
theorem texts_stay_texts {entries entries' : List TooltipEntry} {color color' : Option String}
    {lines lines' : List (String × String)} (sameEntries : entries.map blank = entries'.map blank)
    (sameColor : color.isSome = color'.isSome) (sameLength : lines.length = lines'.length)
    (title title' text : String) :
    skeleton (writer.category title entries) = skeleton (writer.category title' entries') ∧
      skeleton (writer.item title color lines) = skeleton (writer.item title' color' lines') ∧
      Referenced (writer.category title entries) ∧ Referenced (writer.item title color lines) ∧
      unescape (escape text) = text := by
  refine ⟨?_, writer.skeleton_item sameColor sameLength title title',
    writer.referenced_category title entries, writer.referenced_item title color lines,
    unescape_escape text⟩
  calc skeleton (writer.category title entries)
      = skeleton (writer.category "" (entries.map blank)) := writer.skeleton_category title entries
    _ = skeleton (writer.category "" (entries'.map blank)) := by rw [sameEntries]
    _ = skeleton (writer.category title' entries') :=
        (writer.skeleton_category title' entries').symm

/-- Entries whose texts are markup. -/
def markupEntries : List TooltipEntry :=
  [⟨"</div><script>", some "red\" onload=\"run()", some 1⟩, ⟨"a & 'b'", none, some 2⟩]

/-- Entries with the same values and other texts. -/
def plainEntries : List TooltipEntry :=
  [⟨"bars", some "red", some 1⟩, ⟨"", none, some 2⟩]

/-- The tooltips of a writer that sorts and adds up, over texts that are markup and texts that are
not. -/
theorem texts_stay_texts_of_markup :
    markupEntries.map blank = plainEntries.map blank ∧
      skeleton (category ⟨{}, .night, true, true⟩ "<b>" markupEntries) =
        skeleton (category ⟨{}, .night, true, true⟩ "May" plainEntries) ∧
      skeleton (item ⟨{}, .night, true, true⟩ "<b>" (some "\"") [("<", "&")]) =
        skeleton (item ⟨{}, .night, true, true⟩ "May" (some "red") [("share", "5%")]) ∧
      Referenced (category ⟨{}, .night, true, true⟩ "<b>" markupEntries) ∧
      Referenced (item ⟨{}, .night, true, true⟩ "<b>" (some "\"") [("<", "&")]) ∧
      unescape (escape "<b>") = "<b>" := by
  refine ⟨rfl, ?_⟩
  exact @texts_stay_texts ⟨{}, .night, true, true⟩ markupEntries plainEntries (some "\"")
    (some "red") [("<", "&")] [("share", "5%")] rfl rfl rfl "<b>" "May" "<b>"

end TooltipWriter

end ChartCompiler
