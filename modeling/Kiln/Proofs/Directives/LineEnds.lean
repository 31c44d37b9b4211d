import Kiln.Proofs.Lexing.LongestMatch
import Kiln.Proofs.RoundTrip.DirectiveLines

/-!
# What follows a directive on its line

Behind a directive a line may end, with blanks and a comment, or there is a text that does not
belong there.  Every line is one or the other (`endsLine_or_exists_text`), and
`File.textBehind?` measures the text without the blanks around it.  `Found.Reports` says what is
reported of a directive that cannot be read.
-/

namespace Kiln

/-- Nothing but blanks, and perhaps a comment behind them, is left of a line. -/
def EndsLine (cs : List Char) : Prop :=
  ∃ blanks comment, cs = blanks ++ comment ∧ (∀ c ∈ blanks, isBlank c = true) ∧
    (comment = [] ∨ commentMark <+: comment)

/-- A text that has a character and neither begins nor ends in a blank. -/
structure IsTrimmed (text : List Char) : Prop where
  first : ∃ c ∈ text.head?, isBlank c = false
  last : ∃ c ∈ text.getLast?, isBlank c = false

/-- Between blanks there is a text that is no comment. -/
structure HasText (gap text tail : List Char) : Prop where
  gap : ∀ c ∈ gap, isBlank c = true
  trimmed : IsTrimmed text
  noComment : ¬commentMark <+: text
  tail : ∀ c ∈ tail, isBlank c = true

/-- An error with a code at a place is found, with notes on related places. -/
def Found.Reports {α : Type} (found : Found α) (code : Code) (place : Excerpt)
    (related : List Excerpt) : Prop :=
  ∃ d, found.outcome = .error d ∧ d.main.severity = .error ∧ d.main.code = some code ∧
    d.main.excerpt = place ∧ d.related.map (fun n => (n.severity, n.excerpt)) =
      related.map fun e => (.note, e)

section

variable {cs gap text tail : List Char}

theorem dropWhile_of_head? {α : Type} {accept : α → Bool} {as bs : List α}
    (has : ∀ a ∈ as, accept a = true) (hbs : ∀ b ∈ bs.head?, accept b = false) :
    (as ++ bs).dropWhile accept = bs := by
  have hsplit := List.takeWhile_append_dropWhile (p := accept) (l := as ++ bs)
  rw [takeWhile_of_head? has hbs] at hsplit
  exact List.append_cancel_left hsplit

theorem IsTrimmed.ne_nil (h : IsTrimmed text) : text ≠ [] := by
  obtain ⟨c, hc, -⟩ := h.first
  rintro rfl
  cases hc

/-- What begins as a trimmed text does not begin with a blank. -/
theorem IsTrimmed.head?_append (h : IsTrimmed text) (more : List Char) :
    ∀ c ∈ (text ++ more).head?, isBlank c = false := by
  obtain ⟨c, hc, hblank⟩ := h.first
  rw [List.head?_append_of_ne_nil _ h.ne_nil, Option.mem_def.1 hc]
  rintro d ⟨rfl⟩
  exact hblank

/-- What comes before the blanks at the end of a text makes up its trimmed length. -/
theorem trimmedLength_append (hlast : ∃ c ∈ cs.getLast?, isBlank c = false)
    (htail : ∀ c ∈ tail, isBlank c = true) : trimmedLength (cs ++ tail) = cs.length := by
  have hblank : ∀ c ∈ tail.reverse, isBlank c = true := fun c hc => htail c (List.mem_reverse.1 hc)
  have hhead : ∀ c ∈ cs.reverse.head?, isBlank c = false := by
    obtain ⟨c, hc, hnot⟩ := hlast
    rw [List.head?_reverse, Option.mem_def.1 hc]
    rintro d ⟨rfl⟩
    exact hnot
  rw [trimmedLength, List.reverse_append, takeWhile_of_head? hblank hhead, List.length_append,
    List.length_reverse, Nat.add_sub_cancel_right]

/-- A text is blank or has a trimmed text between its blanks. -/
theorem blank_or_exists_trimmed (cs : List Char) :
    (∀ c ∈ cs, isBlank c = true) ∨
      ∃ gap text tail, cs = gap ++ (text ++ tail) ∧ (∀ c ∈ gap, isBlank c = true) ∧
        IsTrimmed text ∧ ∀ c ∈ tail, isBlank c = true := by
  obtain ⟨gap, more, rfl, -, hgap, hmore⟩ := exists_run isBlank cs
  obtain ⟨tail, text, hsplit, -, htail, htext⟩ := exists_run isBlank more.reverse
  rw [List.reverse_eq_iff, List.reverse_append] at hsplit
  rw [← List.reverse_reverse text, List.head?_reverse] at htext
  have htail : ∀ c ∈ tail.reverse, isBlank c = true := fun c hc => htail c (List.mem_reverse.1 hc)
  generalize text.reverse = text at hsplit htext
  generalize tail.reverse = tail at hsplit htail
  subst hsplit
  cases text with
  | nil =>
      rw [List.nil_append]
      exact Or.inl (List.forall_mem_append.2 ⟨hgap, htail⟩)
  | cons c text =>
      refine Or.inr ⟨gap, c :: text, tail, rfl, hgap, ⟨⟨c, rfl, hmore c rfl⟩, ?_⟩, htail⟩
      exact ⟨(c :: text).getLast (List.cons_ne_nil c text), List.getLast?_eq_some_getLast _,
        htext _ (List.getLast?_eq_some_getLast _)⟩

/-- Blanks behind a text do not make it a comment. -/
theorem commentMark_prefix_append_iff (htext : text ≠ []) (htail : ∀ c ∈ tail, isBlank c = true) :
    commentMark <+: text ++ tail ↔ commentMark <+: text := by
  refine ⟨fun h => ?_, fun h => h.trans (List.prefix_append text tail)⟩
  obtain ⟨c, text, rfl⟩ := List.exists_cons_of_ne_nil htext
  rw [commentMark, List.cons_append, List.cons_prefix_cons] at h
  obtain ⟨rfl, h⟩ := h
  cases text with
  | cons d text =>
      rw [List.cons_append, List.cons_prefix_cons] at h
      obtain ⟨rfl, -⟩ := h
      exact ⟨text, rfl⟩
  | nil =>
      obtain ⟨more, rfl⟩ := h
      have hslash : isBlank '/' = false := by decide
      rw [htail '/' (by simp)] at hslash
      cases hslash

theorem endsLine_iff : EndsLine cs ↔
    cs.dropWhile isBlank = [] ∨ commentMark <+: cs.dropWhile isBlank := by
  constructor
  · rintro ⟨blanks, comment, rfl, hblanks, hcomment⟩
    have hhead : ∀ c ∈ comment.head?, isBlank c = false := by
      rcases hcomment with rfl | hcomment
      · rintro c ⟨⟩
      · exact File.not_isBlank_of_commentMark (List.isPrefixOf_iff_prefix.2 hcomment)
    rwa [dropWhile_of_head? hblanks hhead]
  · intro h
    exact ⟨cs.takeWhile isBlank, cs.dropWhile isBlank, List.takeWhile_append_dropWhile.symm,
      fun c hc => List.all_eq_true.1 List.all_takeWhile c hc, h⟩

theorem HasText.dropWhile (h : HasText gap text tail) :
    (gap ++ (text ++ tail)).dropWhile isBlank = text ++ tail :=
  dropWhile_of_head? h.gap (h.trimmed.head?_append tail)

theorem HasText.not_endsLine (h : HasText gap text tail) : ¬EndsLine (gap ++ (text ++ tail)) := by
  rw [endsLine_iff, h.dropWhile, commentMark_prefix_append_iff h.trimmed.ne_nil h.tail]
  simp [h.trimmed.ne_nil, h.noComment]

/-- Behind a directive the line ends or there is a text. -/
theorem endsLine_or_exists_text (cs : List Char) :
    EndsLine cs ∨ ∃ gap text tail, cs = gap ++ (text ++ tail) ∧ HasText gap text tail := by
  rcases blank_or_exists_trimmed cs with hblank | ⟨gap, text, tail, rfl, hgap, htext, htail⟩
  · exact Or.inl ⟨cs, [], (List.append_nil cs).symm, hblank, Or.inl rfl⟩
  · by_cases hcomment : commentMark <+: text
    · exact Or.inl ⟨gap, text ++ tail, rfl, hgap,
        Or.inr (hcomment.trans (List.prefix_append text tail))⟩
    · exact Or.inr ⟨gap, text, tail, rfl, hgap, htext, hcomment, htail⟩

end

theorem Position.right_right (p : Position) (m n : Nat) :
    (p.right m).right n = p.right (m + n) := by
  rw [right, right, right, Nat.add_assoc]

namespace File

variable {file : File} {p : Position} {gap text tail more : List Char}

theorem skipBlanksInLine_of_gap (hrest : file.rest p = gap ++ more)
    (hgap : ∀ c ∈ gap, isBlank c = true) (hmore : ∀ c ∈ more.head?, isBlank c = false) :
    file.skipBlanksInLine p = p.right gap.length := by
  rw [skipBlanksInLine, skipWhile, hrest, takeWhile_of_head? hgap hmore]

theorem rest_skipBlanksInLine (file : File) (p : Position) :
    file.rest (file.skipBlanksInLine p) = (file.rest p).dropWhile isBlank := by
  rw [skipBlanksInLine, skipWhile, rest_right, Cursor.drop_length_takeWhile]

/-- No text is behind a directive where its line ends. -/
theorem textBehind?_skipBlanksInLine_eq_none_iff :
    file.textBehind? (file.skipBlanksInLine p) = none ↔ EndsLine (file.rest p) := by
  have hend : file.atLineEnd (file.skipBlanksInLine p) = true ↔
      (file.rest p).dropWhile isBlank = [] := by
    rw [← rest_skipBlanksInLine, ← position_cursor file (file.skipBlanksInLine p),
      ← Cursor.atLineEnd_eq, Cursor.atLineEnd, List.isEmpty_iff]
    rfl
  rw [textBehind?_eq_none_iff, endsLine_iff, hend, startsWith, rest_skipBlanksInLine,
    List.isPrefixOf_iff_prefix]

theorem charExcerpt_of_rest {c : Char} (hrest : file.rest p = c :: more) :
    file.charExcerpt p = file.stretch p 1 :=
  if_neg (Bool.eq_false_iff.1 (atLineEnd_of_rest_cons hrest))

/-- What comes before a position on its line. -/
theorem exists_before (hne : file.rest p ≠ []) :
    ∃ before, before.length = p.column ∧ (file.lineAt p).chars.toList = before ++ file.rest p := by
  refine ⟨(file.lineAt p).chars.toList.take p.column, ?_, (List.take_append_drop _ _).symm⟩
  rw [rest, ne_eq, List.drop_eq_nil_iff, Nat.not_le] at hne
  exact List.length_take_of_le (Nat.le_of_lt hne)

/-- The text behind a directive is measured without the blanks around it. -/
theorem textBehind?_of_hasText (hrest : file.rest p = gap ++ (text ++ tail))
    (h : HasText gap text tail) :
    file.skipBlanksInLine p = p.right gap.length ∧
      file.textBehind? (p.right gap.length) = some text.length := by
  have hskip := skipBlanksInLine_of_gap hrest h.gap (h.trimmed.head?_append tail)
  have hne := mt textBehind?_skipBlanksInLine_eq_none_iff.1 (hrest ▸ h.not_endsLine)
  rw [hskip] at hne
  refine ⟨hskip, ?_⟩
  rw [textBehind?] at hne ⊢
  split at hne
  · exact absurd rfl hne
  · next hnot =>
      have hrestNe : file.rest p ≠ [] := by
        rw [hrest]
        exact List.append_ne_nil_of_right_ne_nil _
          (List.append_ne_nil_of_left_ne_nil h.trimmed.ne_nil _)
      obtain ⟨before, hbefore, hline⟩ := exists_before hrestNe
      have hlast : ∃ c ∈ (before ++ gap ++ text).getLast?, isBlank c = false := by
        rw [List.getLast?_append_of_ne_nil _ h.trimmed.ne_nil]
        exact h.trimmed.last
      have hlength := trimmedLength_append hlast h.tail
      rw [if_neg hnot]
      show some (trimmedLength (file.lineAt p).chars.toList - (p.column + gap.length)) = _
      rw [hline, hrest, ← List.append_assoc, ← List.append_assoc, hlength, List.length_append,
        List.length_append, hbefore, Nat.add_sub_cancel_left]

end File
end Kiln
