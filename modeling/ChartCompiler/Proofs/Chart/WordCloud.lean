import ChartCompiler.Chart.WordCloud
import ChartCompiler.Proofs.Ranking
import Mathlib.Algebra.Order.BigOperators.Group.List
import Mathlib.Tactic.Linarith

/-!
# The words of a cloud

Mentions of words that differ only in case are mentions of one word.  A cloud ranks the words with a
positive sum and shows the first ones (`Data.Shows`), each as it was first spelled.  Its shares are
parts of all that is positive, shown or not (`Data.Shares`).
-/

set_option autoImplicit false

namespace ChartCompiler.WordCloud

variable {α : Type} [Quantity α]

/-! ## The mentions that rows make -/

/-- A row is read when it has a word that is long enough. -/
def accepts (minLength : Nat) (wordField : String) (row : Record) : Bool :=
  match row.label? wordField with
  | some text => decide (minLength ≤ text.length)
  | none => false

/-- What a row mentions: its word, and its value or zero, or one when values have no field. -/
structure Reads (wordField : String) (valueField : Option String) (row : Record)
    (mention : String × α) : Prop where
  text : row.label? wordField = some mention.1
  value : mention.2 = match valueField with
    | some field => ((row.number? field).map Quantity.ofFloat).getD Quantity.zero
    | none => Quantity.ofNat 1

theorem reads_mentions (minLength : Nat) (wordField : String) (valueField : Option String)
    (rows : List Record) :
    List.Forall₂ (Reads (α := α) wordField valueField) (rows.filter (accepts minLength wordField))
      (rows.filterMap (mention? minLength wordField valueField)) := by
  refine forall₂_filter_filterMap ?_ ?_ rows
  · intro row accepted
    cases word : row.label? wordField with
    | none => simp [accepts, word] at accepted
    | some text =>
      have long : ¬ text.length < minLength := by simpa [accepts, word] using accepted
      rw [mention?, word]
      cases valueField with
      | none => exact ⟨_, if_neg long, word, rfl⟩
      | some field => exact ⟨_, if_neg long, word, rfl⟩
  · intro row refused
    cases word : row.label? wordField with
    | none =>
      rw [mention?, word]
      rfl
    | some text =>
      have short : text.length < minLength := by simpa [accepts, word] using refused
      rw [mention?, word]
      exact if_pos short

/-! ## Words that differ only in case -/

/-- What a mention has in common with the other mentions of its word. -/
def form (mention : String × α) : String :=
  Text.lowercase mention.1

/-- The form of a word. -/
def Word.form (word : Word α) : String :=
  Text.lowercase word.text

section Words

variable (mentions : List (String × α))

/-- The first spelling of a form. -/
def spelling? (name : String) : Option String :=
  (mentions.find? (form · = name)).map Prod.fst

/-- The first spelling of a form, and the sum of its mentions. -/
def sumOf (name : String) : String × α :=
  ((spelling? mentions name).getD "", amountOf form Prod.snd mentions name)

variable {mentions} {mention : String × α} {name : String}

omit [Quantity α] in
theorem exists_spelling (known : name ∈ mentions.map form) :
    ∃ text, spelling? mentions name = some text ∧ Text.lowercase text = name := by
  obtain ⟨other, present, same⟩ := List.mem_map.mp known
  have any : (mentions.find? (form · = name)).isSome :=
    List.find?_isSome.mpr ⟨other, present, decide_eq_true same⟩
  obtain ⟨first, found⟩ := Option.isSome_iff_exists.mp any
  have same : form first = name := by simpa using List.find?_some found
  exact ⟨first.1, by rw [spelling?, found, Option.map_some], same⟩

omit [Quantity α] in
theorem spelling?_append_of_mem (known : name ∈ mentions.map form) :
    spelling? (mentions ++ [mention]) name = spelling? mentions name := by
  obtain ⟨text, found, -⟩ := exists_spelling known
  rw [spelling?, List.find?_append, Option.map_or, ← spelling?, found, Option.some_or]

omit [Quantity α] in
theorem spelling?_append_self (absent : form mention ∉ mentions.map form) :
    spelling? (mentions ++ [mention]) (form mention) = some mention.1 := by
  have missing : mentions.find? (form · = form mention) = none :=
    List.find?_eq_none.mpr fun other present same =>
      absent (of_decide_eq_true same ▸ List.mem_map_of_mem present)
  rw [spelling?, List.find?_append, missing, Option.none_or]
  simp

omit [Quantity α] in
theorem spelling?_append_of_ne (other : name ≠ form mention) :
    spelling? (mentions ++ [mention]) name = spelling? mentions name := by
  have missing : [mention].find? (form · = name) = none := by simp [other.symm]
  rw [spelling?, List.find?_append, missing, Option.or_none, spelling?]

/-- Each form has one sum, under the spelling of its first mention. -/
theorem sums_eq (mentions : List (String × α)) :
    sums mentions = (distinct (mentions.map form)).map (sumOf mentions) := by
  have accounts := foldl_book_account (form (α := α)) (fun mention => (mention.1, Quantity.zero))
    (fun mention account => (account.1, account.2 + mention.2)) sumOf
    ?opens ?continues ?others mentions
  case opens =>
    intro mentions mention absent
    rw [sumOf, spelling?_append_self absent, amountOf_append_self, amountOf_of_not_mem absent]
    rfl
  case continues =>
    intro mentions mention known
    rw [sumOf, spelling?_append_of_mem known, amountOf_append_self, sumOf]
  case others =>
    intro mentions mention name other
    rw [sumOf, spelling?_append_of_ne other, amountOf_append_of_ne mention other, sumOf]
  unfold sums
  refine (congrArg (List.map _) accounts).trans ?_
  rw [List.map_map]
  rfl

end Words

/-! ## Clouds -/

/-- The words of a cloud are the first ones that some mentions rank. -/
structure Data.Shows (data : Data α) (maxWords : Nat) (mentions : List (String × α))
    (omitted : List String) : Prop where
  /-- The forms with a positive sum are ranked; those of the words that are shown come first. -/
  ranks : Ranks form Prod.snd mentions (data.words.map Word.form ++ omitted)
  /-- No more words are shown than are allowed. -/
  count : data.words.length ≤ maxWords
  /-- Words are omitted only when there is no room for them. -/
  room : omitted ≠ [] → data.words.length = maxWords
  /-- A word is spelled as it was first. -/
  spelling : ∀ word ∈ data.words, spelling? mentions word.form = some word.text
  /-- The value of a word is the sum of its mentions. -/
  value : ∀ word ∈ data.words, word.value = amountOf form Prod.snd mentions word.form
  /-- The values are positive. -/
  positive : ∀ word ∈ data.words, Quantity.zero < word.value
  /-- No omitted form has more than a word that is shown. -/
  largest : ∀ word ∈ data.words, ∀ name ∈ omitted,
    amountOf form Prod.snd mentions name ≤ word.value

/-- The shares of a cloud are parts of all that is positive. -/
structure Data.Shares (data : Data ℚ) (mentions : List (String × ℚ)) (omitted : List String) :
    Prop where
  /-- The total is the sum of all sums that are positive. -/
  total : data.total = positiveTotal form Prod.snd mentions
  /-- A share is a percentage of the total. -/
  share : ∀ word ∈ data.words, word.share = 100 * word.value / data.total
  /-- The shares do not exceed the whole. -/
  sum_le : (data.words.map (·.share)).sum ≤ 100
  /-- The shares of all words are the whole. -/
  sum_eq : data.words ≠ [] → omitted = [] → (data.words.map (·.share)).sum = 100

section Cloud

variable {mentions : List (String × α)}

/-- The sum of all that is positive, in the order in which the forms come up. -/
def totalOf (mentions : List (String × α)) : α :=
  Quantity.sum ((positiveKeys form Prod.snd mentions).map (amountOf form Prod.snd mentions))

/-- The word that is made of a form. -/
def wordOf (mentions : List (String × α)) (name : String) : Word α :=
  { text := (spelling? mentions name).getD ""
    value := amountOf form Prod.snd mentions name
    share := amountOf form Prod.snd mentions name / totalOf mentions * Quantity.ofNat 100 }

theorem ofEntries_eq (maxWords : Nat) (mentions : List (String × α)) :
    ofEntries maxWords mentions =
      { words := ((ranking form Prod.snd mentions).take maxWords).map (wordOf mentions)
        total := totalOf mentions } := by
  have positive : (sums mentions).filter (fun sum => decide (Quantity.zero < sum.2)) =
      (positiveKeys form Prod.snd mentions).map (sumOf mentions) := by
    rw [sums_eq]
    exact positive_map fun _ => rfl
  have ranked : ((sums mentions).filter fun sum => decide (Quantity.zero < sum.2)).mergeSort
      (fun left right => Quantity.totalLE right.2 left.2) =
        (ranking form Prod.snd mentions).map (sumOf mentions) := by
    rw [sums_eq]
    exact ranked_map fun _ => rfl
  -- `ofSums` matches on pairs; with projections instead both lists stand in it as they are above.
  show Data.mk (((((sums mentions).filter fun sum => decide (Quantity.zero < sum.2)).mergeSort
      fun left right => Quantity.totalLE right.2 left.2).take maxWords).map fun sum =>
        Word.mk sum.1 sum.2 (sum.2 / Quantity.sum (((sums mentions).filter fun sum =>
          decide (Quantity.zero < sum.2)).map (·.2)) * Quantity.ofNat 100)) _ = _
  rw [ranked, positive, ← List.map_take, List.map_map, List.map_map]
  rfl

/-- The word of a ranked form is spelled like its first mention, and has its form. -/
theorem wordOf_spec {name : String} (known : name ∈ mentions.map form) :
    spelling? mentions name = some (wordOf mentions name).text ∧
      (wordOf mentions name).form = name := by
  obtain ⟨text, spelled, same⟩ := exists_spelling known
  have shown : (wordOf mentions name).text = text := by rw [wordOf, spelled, Option.getD_some]
  rw [Word.form, shown]
  exact ⟨spelled, same⟩

variable [Quantity.Ordered α]

theorem shows_ofEntries (maxWords : Nat) (mentions : List (String × α)) :
    (ofEntries maxWords mentions).Shows maxWords mentions
      ((ranking form Prod.snd mentions).drop maxWords) := by
  have ranks := ranks_ranking form Prod.snd mentions
  have ranked {name : String} (kept : name ∈ (ranking form Prod.snd mentions).take maxWords) :=
    (ranks.mem_iff name).mp (List.mem_of_mem_take kept)
  have forms : (((ranking form Prod.snd mentions).take maxWords).map (wordOf mentions)).map
      Word.form = (ranking form Prod.snd mentions).take maxWords := by
    rw [List.map_map]
    exact (List.map_congr_left fun name kept => (wordOf_spec (ranked kept).1).2).trans
      (List.map_id _)
  rw [ofEntries_eq]
  refine ⟨?ranks, ?count, ?room, ?spelling, ?value, ?positive, ?largest⟩
  case ranks =>
    rwa [forms, List.take_append_drop]
  case count =>
    rw [List.length_map]
    exact List.length_take_le _ _
  case room =>
    intro some
    rw [List.length_map, List.length_take]
    exact min_eq_left (Nat.le_of_lt (by simpa using some))
  case spelling =>
    intro word member
    obtain ⟨name, kept, rfl⟩ := List.mem_map.mp member
    obtain ⟨spelled, same⟩ := wordOf_spec (ranked kept).1
    rwa [same]
  case value =>
    intro word member
    obtain ⟨name, kept, rfl⟩ := List.mem_map.mp member
    rw [(wordOf_spec (ranked kept).1).2]
    rfl
  case positive =>
    intro word member
    obtain ⟨name, kept, rfl⟩ := List.mem_map.mp member
    exact (ranked kept).2
  case largest =>
    intro word member
    obtain ⟨name, kept, rfl⟩ := List.mem_map.mp member
    intro other omitted
    exact ranks.amountOf_le (List.take_append_drop maxWords _).symm kept omitted

end Cloud

/-! ## Exact shares -/

section Exact

variable {mentions : List (String × ℚ)} {omitted : List String} {data : Data ℚ} {maxWords : Nat}

theorem totalOf_rat (mentions : List (String × ℚ)) :
    totalOf mentions = positiveTotal form Prod.snd mentions := by
  have ranks := ranks_ranking form Prod.snd mentions
  rw [totalOf, Quantity.sum_rat, ← ranks.sum_amountOf]
  exact (ranking_perm.map _).sum_eq.symm

/-- What is shown and what is omitted is all that is positive. -/
theorem Data.Shows.sum_values (shown : data.Shows maxWords mentions omitted) :
    (data.words.map (·.value)).sum + (omitted.map (amountOf form Prod.snd mentions)).sum =
      positiveTotal form Prod.snd mentions := by
  have values : data.words.map (·.value) =
      (data.words.map Word.form).map (amountOf form Prod.snd mentions) := by
    rw [List.map_map]
    exact List.map_congr_left shown.value
  rw [← shown.ranks.sum_amountOf, values, List.map_append, List.sum_append]

/-- Words that are shown with parts of the whole share it. -/
theorem Data.Shows.shares (shown : data.Shows maxWords mentions omitted)
    (total : data.total = positiveTotal form Prod.snd mentions)
    (share : ∀ word ∈ data.words, word.share = 100 * word.value / data.total) :
    data.Shares mentions omitted := by
  have shares : (data.words.map (·.share)).sum =
      (data.words.map (·.value)).sum / data.total * 100 := by
    have each : data.words.map (·.share) =
        data.words.map fun word => word.value * (100 / data.total) := by
      refine List.map_congr_left fun word member => ?_
      rw [share word member]
      ring
    rw [each, List.sum_map_mul_right]
    ring
  have parts := shown.sum_values
  rw [← total] at parts
  have left : 0 ≤ (omitted.map (amountOf form Prod.snd mentions)).sum := by
    apply List.sum_nonneg
    intro value member
    obtain ⟨name, there, rfl⟩ := List.mem_map.mp member
    exact ((shown.ranks.mem_iff name).mp (List.mem_append_right _ there)).2.le
  have values : ∀ value ∈ data.words.map (·.value), 0 < value := by
    intro value member
    obtain ⟨word, here, rfl⟩ := List.mem_map.mp member
    exact shown.positive word here
  refine ⟨total, share, ?_, fun some none => ?_⟩
  · have whole : (data.words.map (·.value)).sum / data.total ≤ 1 := by
      apply div_le_one_of_le₀
      · linarith
      · linarith [List.sum_nonneg fun value member => (values value member).le]
    rw [shares]
    linarith
  · have positive := List.sum_pos _ values (mt List.map_eq_nil_iff.mp some)
    rw [none, List.map_nil, List.sum_nil, add_zero] at parts
    rw [shares, parts, div_self (parts ▸ positive).ne', one_mul]

theorem shares_ofEntries (maxWords : Nat) (mentions : List (String × ℚ)) :
    (ofEntries maxWords mentions).Shares mentions
      ((ranking form Prod.snd mentions).drop maxWords) := by
  apply (shows_ofEntries maxWords mentions).shares
  · rw [ofEntries_eq, totalOf_rat]
  · have hundred : (Quantity.ofNat 100 : ℚ) = 100 := rfl
    rw [ofEntries_eq]
    intro word member
    obtain ⟨name, -, rfl⟩ := List.mem_map.mp member
    simp only [wordOf, hundred]
    ring

end Exact

/-! ## Clouds of records -/

/-- **A cloud shows the words that its records mention most.**  Mentions that differ only in case
are added up, the words with a positive sum are ranked, and as many as there is room for are shown.
In exact arithmetic their shares are percentages of all that is positive. -/
theorem ofRows_shows {rows : List Record} {config : Config} {wordField : String}
    {valueField : Option String} (resolved : fields? rows config = some (wordField, valueField)) :
    (∃ (mentions : List (String × Float)) (omitted : List String),
      List.Forall₂ (Reads wordField valueField)
        (rows.filter (accepts config.wordCloud.minWordLength wordField)) mentions ∧
      (ofRows rows config).Shows config.wordCloud.maxWords mentions omitted) ∧
    ∃ (mentions : List (String × ℚ)) (omitted : List String),
      List.Forall₂ (Reads wordField valueField)
        (rows.filter (accepts config.wordCloud.minWordLength wordField)) mentions ∧
      (ofRows rows config).Shows config.wordCloud.maxWords mentions omitted ∧
        (ofRows rows config).Shares mentions omitted := by
  simp only [ofRows, resolved]
  exact ⟨⟨_, _, reads_mentions _ wordField valueField rows, shows_ofEntries _ _⟩,
    _, _, reads_mentions _ wordField valueField rows, shows_ofEntries _ _, shares_ofEntries _ _⟩

/-- A word in two spellings, one that is too short, one whose values cancel out, one with a value
that does not read as a number, and a row without a word. -/
def spelledRecords : List Record :=
  [[("count", 2), ("word", .string "Lean")],
    [("count", 3), ("word", .string "proof")],
    [("count", 2), ("word", .string "LEAN")],
    [("count", 9), ("word", .string "of")],
    [("count", 1), ("word", .string "term")],
    [("count", .string "-1"), ("word", .string "Term")],
    [("count", .string "many"), ("word", .string "Proof")],
    [("count", 5)]]

/-- Words of three letters or more, of which there is room for one. -/
def oneWord : Config :=
  { wordCloud := { maxWords := 1, minWordLength := 3 } }

/-- Six rows are read. -/
theorem ofRows_shows_lean :
    fields? spelledRecords oneWord = some ("word", some "count") ∧
      (spelledRecords.filter (accepts 3 "word")).length = 6 ∧
      (∃ (mentions : List (String × Float)) (omitted : List String),
        List.Forall₂ (Reads "word" (some "count")) (spelledRecords.filter (accepts 3 "word"))
          mentions ∧
        (ofRows spelledRecords oneWord).Shows 1 mentions omitted) ∧
      ∃ (mentions : List (String × ℚ)) (omitted : List String),
        List.Forall₂ (Reads "word" (some "count")) (spelledRecords.filter (accepts 3 "word"))
          mentions ∧
        (ofRows spelledRecords oneWord).Shows 1 mentions omitted ∧
          (ofRows spelledRecords oneWord).Shares mentions omitted := by
  have resolved : fields? spelledRecords oneWord = some ("word", some "count") := rfl
  exact ⟨resolved, by decide +kernel, ofRows_shows resolved⟩

end ChartCompiler.WordCloud
