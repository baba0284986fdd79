import ChartCompiler.Text.Blank
import ChartCompiler.Text.Split
import Mathlib.Data.List.Infix

/-!
# Parts of a text

The parts that a text is split into hold no separator (`not_infix_of_mem_split`).  Parts without
separators can be told from a text in which separators stand between them, provided that no proper
part of the separator stands at both of its ends (`cut_inj_of_unbordered`).  Otherwise the end of
one part may complete a separator that begins before it: `a:` and `a` are both followed by `::` in
`a:::b`.
-/

set_option autoImplicit false

namespace ChartCompiler.Text

/-! ## Parts without separators -/

section Split

variable {separator before text part : List Char}

/-- Whether no separator starts within the characters that are read. -/
def Uncut (separator before text : List Char) : Prop :=
  ∀ start, start ≠ [] → start <:+ before.reverse → ¬ separator <+: start ++ text

theorem uncut_nil : Uncut separator [] text := by
  intro start nonempty within
  exact absurd (List.suffix_nil.mp within) nonempty

/-- Another character is read when no separator starts with it. -/
theorem Uncut.read {character : Char} (uncut : Uncut separator before (character :: text))
    (apart : ¬ separator <+: character :: text) : Uncut separator (character :: before) text := by
  intro start nonempty within
  rw [List.reverse_cons, List.suffix_concat_iff] at within
  rcases within with rfl | ⟨earlier, rfl, within⟩
  · exact absurd rfl nonempty
  · rw [List.append_assoc]
    cases earlier with
    | nil => exact apart
    | cons first rest => exact uncut _ (List.cons_ne_nil _ _) within

theorem Uncut.not_infix (nonempty : separator ≠ []) (uncut : Uncut separator before text) :
    ¬ separator <:+: before.reverse := by
  rintro ⟨earlier, later, whole⟩
  refine uncut (separator ++ later) (by simp [nonempty]) ⟨earlier, ?_⟩ ?_
  · rw [← whole, List.append_assoc]
  · rw [List.append_assoc]
    exact List.prefix_append _ _

/-- While a separator is skipped, nothing of the next part is read yet. -/
theorem not_infix_of_mem_splitFrom (nonempty : separator ≠ []) {skip : Nat}
    (skipping : skip ≠ 0 → before = []) (uncut : Uncut separator before text)
    (member : part ∈ splitFrom separator skip before text) : ¬ separator <:+: part := by
  fun_induction splitFrom separator skip before text with
  | case1 skip before =>
      obtain rfl := List.mem_singleton.mp member
      exact uncut.not_infix nonempty
  | case2 skip before character rest ih =>
      obtain rfl := skipping (Nat.succ_ne_zero _)
      exact ih (fun _ => rfl) uncut_nil member
  | case3 before character rest found ih =>
      rcases List.mem_cons.mp member with rfl | later
      · exact uncut.not_infix nonempty
      · exact ih (fun _ => rfl) uncut_nil later
  | case4 before character rest apart ih =>
      exact ih (fun started => absurd rfl started)
        (uncut.read fun here => apart (List.isPrefixOf_iff_prefix.mpr here)) member

/-- No part of a split text holds the separator. -/
theorem not_infix_of_mem_split (nonempty : separator ≠ []) (member : part ∈ split separator text) :
    ¬ separator <:+: part :=
  not_infix_of_mem_splitFrom nonempty (fun started => absurd rfl started) uncut_nil member

end Split

theorem dropBlanks_eq_self {text : List Char}
    (front : ∀ first ∈ text.head?, isBlank first = false) : dropBlanks text = text := by
  cases text with
  | nil => rfl
  | cons first rest => exact List.dropWhile_cons_of_neg (by simp [front first rfl])

/-- A text without blanks at its ends is not trimmed. -/
theorem trimBlanks_eq_self {text : List Char}
    (front : ∀ first ∈ text.head?, isBlank first = false)
    (back : ∀ last ∈ text.getLast?, isBlank last = false) : trimBlanks text = text := by
  rw [← List.head?_reverse] at back
  rw [trimBlanks, dropBlanks_eq_self front, dropBlanks_eq_self back, List.reverse_reverse]

/-- Blanks around a text are trimmed. -/
theorem trimBlanks_append {front text back : List Char}
    (blank : ∀ mark ∈ front ++ back, isBlank mark = true)
    (first : ∀ mark ∈ text.head?, isBlank mark = false)
    (last : ∀ mark ∈ text.getLast?, isBlank mark = false) (occupied : text ≠ []) :
    trimBlanks (front ++ text ++ back) = text := by
  obtain ⟨before, after⟩ := List.forall_mem_append.mp blank
  have started : dropBlanks (front ++ (text ++ back)) = text ++ back := by
    rw [dropBlanks, List.dropWhile_append_of_pos before]
    refine dropBlanks_eq_self fun mark starts => first mark ?_
    rwa [List.head?_append_of_ne_nil _ occupied] at starts
  have ended : dropBlanks (text ++ back).reverse = text.reverse := by
    rw [List.reverse_append, dropBlanks,
      List.dropWhile_append_of_pos fun mark member => after mark (List.mem_reverse.mp member)]
    exact dropBlanks_eq_self fun mark ends => last mark (List.head?_reverse ▸ ends)
  rw [trimBlanks, List.append_assoc, started, ended, List.reverse_reverse]

theorem trimBlanks_infix (text : List Char) : trimBlanks text <:+: text := by
  have front : dropBlanks text <:+ text := List.dropWhile_suffix _
  have back : trimBlanks text <+: dropBlanks text := by
    rw [trimBlanks, ← List.reverse_suffix, List.reverse_reverse]
    exact List.dropWhile_suffix _
  exact back.isInfix.trans front.isInfix

/-! ## Cutting where a separator starts -/

/-- Whether no proper part of a separator stands at both of its ends. -/
def Unbordered (separator : List Char) : Prop :=
  ∀ border, border ≠ [] → border <+: separator → border <:+ separator → border = separator

theorem unbordered_singleton (mark : Char) : Unbordered [mark] := by
  intro border nonempty atStart _
  rcases List.prefix_cons_iff.mp atStart with rfl | ⟨rest, rfl, none⟩
  · exact absurd rfl nonempty
  · rw [List.prefix_nil.mp none]

section Cut

variable {separator first second after after' : List Char} (unbordered : Unbordered separator)

include unbordered

/-- A separator after the first part and one after the second cannot overlap, and neither lies
within a part. -/
theorem no_gap {gap : List Char} (free : ¬ separator <:+: first ++ gap)
    (starts : after = [] ∨ separator <+: after) (starts' : after' = [] ∨ separator <+: after')
    (same : after = gap ++ after') : gap = [] := by
  by_contra nonempty
  have within : ¬ separator <+: gap := fun inside =>
    free (inside.isInfix.trans (List.suffix_append _ _).isInfix)
  have found : separator <+: gap ++ after' := by
    rcases starts with rfl | starts
    · exact absurd (List.append_eq_nil_iff.mp same.symm).1 nonempty
    · exact same ▸ starts
  rcases List.prefix_or_prefix_of_prefix found (List.prefix_append _ _) with inside | ⟨border, rfl⟩
  · exact within inside
  · have atSecond : border <+: after' := (List.prefix_append_right_inj gap).mp found
    have proper : border ≠ [] := by
      rintro rfl
      exact within (by rw [List.append_nil])
    have second : gap ++ border <+: after' := by
      rcases starts' with rfl | starts'
      · exact absurd (List.prefix_nil.mp atSecond) proper
      · exact starts'
    have atStart : border <+: gap ++ border :=
      List.prefix_of_prefix_length_le atSecond second (by simp)
    have whole := unbordered border proper atStart (List.suffix_append _ _)
    exact nonempty (List.append_left_eq_self.mp whole.symm)

theorem cut_inj_of_unbordered (free : ¬ separator <:+: first) (free' : ¬ separator <:+: second)
    (starts : after = [] ∨ separator <+: after) (starts' : after' = [] ∨ separator <+: after')
    (same : first ++ after = second ++ after') : first = second ∧ after = after' := by
  rcases List.append_eq_append_iff.mp same with ⟨gap, rfl, later⟩ | ⟨gap, rfl, later⟩
  · obtain rfl := no_gap unbordered free' starts starts' later
    exact ⟨(List.append_nil _).symm, later⟩
  · obtain rfl := no_gap unbordered free starts' starts later
    exact ⟨List.append_nil _, later.symm⟩

end Cut

/-- A mark cuts a text in only one way at the first place where it stands. -/
theorem cut_inj {mark : Char} {first second rest rest' : List Char} (free : mark ∉ first)
    (free' : mark ∉ second) :
    first ++ mark :: rest = second ++ mark :: rest' ↔ first = second ∧ rest = rest' := by
  constructor
  · intro same
    have apart {text : List Char} (free : mark ∉ text) : ¬ [mark] <:+: text :=
      fun inside => free (inside.subset List.mem_cons_self)
    have starts (rest : List Char) : mark :: rest = [] ∨ [mark] <+: mark :: rest :=
      .inr (List.prefix_append [mark] rest)
    obtain ⟨parts, later⟩ := cut_inj_of_unbordered (unbordered_singleton mark) (apart free)
      (apart free') (starts rest) (starts rest') same
    exact ⟨parts, (List.cons.inj later).2⟩
  · rintro ⟨rfl, rfl⟩
    rfl

end ChartCompiler.Text
