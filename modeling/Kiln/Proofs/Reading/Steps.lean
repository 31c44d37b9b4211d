import Kiln.Proofs.Coverage.Trivia

/-!
# Reading step by step

The pieces of a file from a position on, told by what stands there: a blank and a
comment are passed, from the end of a line reading goes on with the line below, and
anything else is read as a piece, of whatever sort the pieces are.  `reading_induct` is
the induction that goes with these steps.
-/

namespace Kiln
namespace File

variable {file : File} {p : Position} {cs more : List Char}

/-! ## What is left of a line -/

theorem rest_right_of_rest (h : file.rest p = cs ++ more) :
    file.rest (p.right cs.length) = more := by
  rw [rest_right, h, List.drop_left]

theorem textAt_of_rest (h : file.rest p = cs ++ more) :
    file.textAt p cs.length = String.ofList cs := by
  rw [textAt, h, List.take_left]

theorem rest_right_one {c : Char} (h : file.rest p = c :: more) : file.rest (p.right 1) = more :=
  rest_right_of_rest (show file.rest p = [c] ++ more from h)

theorem textAt_one {c : Char} (h : file.rest p = c :: more) :
    file.textAt p 1 = String.ofList [c] :=
  textAt_of_rest (show file.rest p = [c] ++ more from h)

theorem charAt_of_rest {c : Char} (h : file.rest p = c :: more) : file.charAt p = some c := by
  rw [← head?_rest, h, List.head?_cons]

theorem atLineEnd_of_rest (h : file.rest p = []) : file.atLineEnd p = true := by
  cases hend : file.atLineEnd p with
  | true => rfl
  | false =>
      obtain ⟨c, hc⟩ := atLineEnd_eq_false_iff.1 hend
      rw [← head?_rest, h] at hc
      cases hc

theorem rest_lineEnd (file : File) (index : Nat) : file.rest (file.lineEnd index) = [] := by
  rw [rest, lineEnd, lineAt, Line.length, ← Array.length_toList, List.drop_length]

theorem lt_lastIndex_iff {index : Nat} :
    index < file.lastIndex ↔ index + 1 < file.lineCount := by
  simp only [lastIndex, lineCount]
  omega

/-! ## Trivia -/

theorem skipTrivia_congr {c d : Cursor file} (hline : c.position.line = d.position.line)
    (hskip : c.skipBlanksInLine = d.skipBlanksInLine) : c.skipTrivia = d.skipTrivia := by
  rw [Cursor.skipTrivia.eq_def c, Cursor.skipTrivia.eq_def d, hskip, hline]

/-- Past a blank is as good as before it. -/
theorem skipTrivia_of_blank {c : Char} (hrest : file.rest p = c :: more) (hc : isBlank c = true) :
    (file.cursor p).skipTrivia = (file.cursor (p.right 1)).skipTrivia := by
  have hskip : (file.cursor p).skipBlanksInLine = (file.cursor (p.right 1)).skipBlanksInLine := by
    apply Cursor.ext
    show p.right ((file.rest p).takeWhile isBlank).length =
      (p.right 1).right ((file.rest (p.right 1)).takeWhile isBlank).length
    rw [rest_right_one hrest, hrest, List.takeWhile_cons_of_pos hc, List.length_cons]
    simp only [Position.right, Position.mk.injEq, true_and]
    omega
  exact skipTrivia_congr rfl hskip

/-- No blank is passed where none stands. -/
theorem skipBlanksInLine_cursor (h : ∀ c ∈ (file.rest p).head?, isBlank c = false) :
    (file.cursor p).skipBlanksInLine = file.cursor p := by
  apply Cursor.ext
  show p.right ((file.rest p).takeWhile isBlank).length = p
  cases hrest : file.rest p with
  | nil => rfl
  | cons c more =>
      rw [hrest] at h
      rw [List.takeWhile_cons_of_neg (by simp [h c rfl])]
      rfl

theorem not_isBlank_of_commentMark (h : commentMark.isPrefixOf cs = true) :
    ∀ c ∈ cs.head?, isBlank c = false := by
  obtain ⟨after, rfl⟩ := List.isPrefixOf_iff_prefix.1 h
  rintro c ⟨⟩
  decide

/-- From the end of a line, and from a comment, the line below is the next to look at. -/
theorem skipTrivia_below (hblank : ∀ c ∈ (file.rest p).head?, isBlank c = false)
    (hrest : file.rest p = [] ∨ commentMark.isPrefixOf (file.rest p) = true) :
    (file.cursor p).skipTrivia =
      if p.line < file.lastIndex then (file.cursor ⟨p.line + 1, 0⟩).skipTrivia
      else file.cursor file.endPosition := by
  have hstop : ((file.cursor p).atLineEnd || (file.cursor p).startsWith commentMark) = true := by
    rw [Bool.or_eq_true]
    exact hrest.imp List.isEmpty_iff.2 id
  rw [Cursor.skipTrivia, skipBlanksInLine_cursor hblank, if_pos hstop]
  rfl

/-- Where neither a blank nor a comment stands nothing is skipped. -/
theorem skipTrivia_of_piece {c : Char} (hrest : file.rest p = c :: more)
    (hblank : isBlank c = false) (hcomment : commentMark.isPrefixOf (file.rest p) = false) :
    (file.cursor p).skipTrivia = file.cursor p := by
  have hstart : (file.cursor p).atLineEnd = false := by
    simp [Cursor.atLineEnd, cursor, hrest]
  have hskip : (file.cursor p).skipBlanksInLine = file.cursor p :=
    skipBlanksInLine_cursor (by simp [hrest, hblank])
  have hnot : (file.cursor p).startsWith commentMark = false := hcomment
  rw [Cursor.skipTrivia, hskip, if_neg (by simp [hstart, hnot])]

/-! ## Steps -/

variable {α : Type} {readAt : Cursor file → Found α} {advances : file.Advances readAt}

/-- The pieces of a file from a position on. -/
def piecesFrom (advances : file.Advances readAt) (p : Position) : Except Diagnostic (List α) :=
  file.readAllFrom readAt advances (file.cursor p)

/-- The pieces of a file from a line on; there are none below the last line. -/
def piecesOfLine (advances : file.Advances readAt) (index : Nat) : Except Diagnostic (List α) :=
  if index < file.lineCount then piecesFrom advances ⟨index, 0⟩ else .ok []

theorem piecesFrom_congr {q : Position}
    (h : (file.cursor p).skipTrivia = (file.cursor q).skipTrivia) :
    piecesFrom advances p = piecesFrom advances q := by
  rw [piecesFrom, piecesFrom]
  by_cases hend : (file.cursor q).skipTrivia.atEnd = true
  · rw [readAllFrom_of_atEnd hend, readAllFrom_of_atEnd (h ▸ hend)]
  · rw [Bool.not_eq_true] at hend
    rw [readAllFrom_of_not_atEnd hend, readAllFrom_of_not_atEnd (h ▸ hend), h]

/-- A blank is passed. -/
theorem piecesFrom_blank {c : Char} (hrest : file.rest p = c :: more) (hc : isBlank c = true) :
    piecesFrom advances p = piecesFrom advances (p.right 1) :=
  piecesFrom_congr (skipTrivia_of_blank hrest hc)

theorem piecesFrom_below (hblank : ∀ c ∈ (file.rest p).head?, isBlank c = false)
    (hrest : file.rest p = [] ∨ commentMark.isPrefixOf (file.rest p) = true) :
    piecesFrom advances p = piecesOfLine advances (p.line + 1) := by
  have hskip := skipTrivia_below hblank hrest
  rw [piecesOfLine]
  split
  · next hline =>
      rw [if_pos (lt_lastIndex_iff.2 hline)] at hskip
      exact piecesFrom_congr hskip
  · next hline =>
      rw [if_neg (mt lt_lastIndex_iff.1 hline)] at hskip
      apply readAllFrom_of_atEnd
      rw [hskip, Cursor.atEnd_eq, position_cursor, atEnd_endPosition]

/-- From the end of a line reading goes on with the line below. -/
theorem piecesFrom_lineEnd (hrest : file.rest p = []) :
    piecesFrom advances p = piecesOfLine advances (p.line + 1) :=
  piecesFrom_below (by simp [hrest]) (.inl hrest)

/-- A comment is passed with the rest of its line. -/
theorem piecesFrom_comment (hcomment : commentMark.isPrefixOf (file.rest p) = true) :
    piecesFrom advances p = piecesOfLine advances (p.line + 1) :=
  piecesFrom_below (not_isBlank_of_commentMark hcomment) (.inr hcomment)

/-- From the end of a line, and from a comment, reading goes on with the line below. -/
theorem piecesFrom_passed
    (hrest : file.rest p = [] ∨ commentMark.isPrefixOf (file.rest p) = true) :
    piecesFrom advances p = piecesOfLine advances (p.line + 1) :=
  hrest.elim piecesFrom_lineEnd piecesFrom_comment

/-- Where neither a blank nor a comment stands a piece is read, and then those behind
it. -/
theorem piecesFrom_piece {c : Char} (hrest : file.rest p = c :: more) (hblank : isBlank c = false)
    (hcomment : commentMark.isPrefixOf (file.rest p) = false) :
    piecesFrom advances p =
      (readAt (file.cursor p)).outcome.bind fun a =>
        (piecesFrom advances (readAt (file.cursor p)).stop).map (a :: ·) := by
  have hstart : (file.cursor p).atLineEnd = false := by
    simp [Cursor.atLineEnd, cursor, hrest]
  have htrivia := skipTrivia_of_piece hrest hblank hcomment
  have hend : (file.cursor p).skipTrivia.atEnd = false := by
    rw [htrivia, Cursor.atEnd, hstart, Bool.false_and]
  rw [piecesFrom, readAllFrom_of_not_atEnd hend, htrivia]
  rfl

theorem piecesFrom_eq_ok_iff {c : Char} {as : List α} (hrest : file.rest p = c :: more)
    (hblank : isBlank c = false) (hcomment : commentMark.isPrefixOf (file.rest p) = false) :
    piecesFrom advances p = .ok as ↔
      ∃ a behind, (readAt (file.cursor p)).outcome = .ok a ∧
        piecesFrom advances (readAt (file.cursor p)).stop = .ok behind ∧ a :: behind = as := by
  rw [piecesFrom_piece hrest hblank hcomment]
  cases (readAt (file.cursor p)).outcome with
  | error d => simp [Except.bind]
  | ok a => simp [Except.bind, map_eq_ok_iff]

/-- Reading fails at a piece or behind it. -/
theorem piecesFrom_eq_error_iff {c : Char} {d : Diagnostic} (hrest : file.rest p = c :: more)
    (hblank : isBlank c = false) (hcomment : commentMark.isPrefixOf (file.rest p) = false) :
    piecesFrom advances p = .error d ↔
      (readAt (file.cursor p)).outcome = .error d ∨
        ∃ a, (readAt (file.cursor p)).outcome = .ok a ∧
          piecesFrom advances (readAt (file.cursor p)).stop = .error d := by
  rw [piecesFrom_piece hrest hblank hcomment]
  cases (readAt (file.cursor p)).outcome with
  | error d => simp [Except.bind]
  | ok a => simp [Except.bind, map_eq_error_iff]

/-! ## Induction -/

theorem left_lt_of_advance {q : Position} (hline : file.atLineEnd p = false)
    (h : file.Forward p q) : file.left q < file.left p := by
  rcases h with ⟨hsame, hlt⟩ | ⟨hlt, hlast⟩
  · have hcolumn : p.column < (file.lineAt p).length := by
      simpa [atLineEnd] using hline
    have hq : file.lineAt q = file.lineAt p := by rw [lineAt, hsame, lineAt]
    simp only [left, hq, hsame]
    omega
  · exact left_lt_of_line_lt hlt hlast

theorem Forward.lt_lineCount {q : Position} (h : file.Forward p q)
    (hp : p.line < file.lineCount) : q.line < file.lineCount := by
  rcases h with ⟨hsame, -⟩ | ⟨-, hlast⟩
  · exact hsame ▸ hp
  · simp only [lastIndex, lineCount] at hlast hp ⊢
    omega

theorem atLineEnd_of_rest_cons {c : Char} (hrest : file.rest p = c :: more) :
    file.atLineEnd p = false :=
  atLineEnd_eq_false_iff.2 ⟨c, charAt_of_rest hrest⟩

/-- What holds of a position whenever it holds of the one at which reading goes on holds
of every position of the file. -/
theorem reading_induct (advances : file.Advances readAt) {motive : Position → Prop}
    (below : ∀ p, p.line < file.lineCount →
      file.rest p = [] ∨ commentMark.isPrefixOf (file.rest p) = true →
      (p.line + 1 < file.lineCount → motive ⟨p.line + 1, 0⟩) → motive p)
    (blank : ∀ p c more, p.line < file.lineCount → file.rest p = c :: more →
      isBlank c = true → motive (p.right 1) → motive p)
    (piece : ∀ p c more, p.line < file.lineCount → file.rest p = c :: more →
      isBlank c = false → commentMark.isPrefixOf (file.rest p) = false →
      (∀ a, (readAt (file.cursor p)).outcome = .ok a → motive (readAt (file.cursor p)).stop) →
      motive p)
    {p : Position} (hp : p.line < file.lineCount) : motive p := by
  induction hleft : file.left p using Nat.strongRecOn generalizing p with
  | ind n ih =>
      subst hleft
      have hbelow : p.line + 1 < file.lineCount → motive ⟨p.line + 1, 0⟩ := by
        intro hline
        refine ih _ (left_lt_of_line_lt (Nat.lt_succ_self _) ?_) hline rfl
        exact lt_lastIndex_iff.2 hline
      cases hrest : file.rest p with
      | nil => exact below p hp (.inl hrest) hbelow
      | cons c more =>
          have hline := atLineEnd_of_rest_cons hrest
          by_cases hcomment : commentMark.isPrefixOf (file.rest p) = true
          · exact below p hp (.inr hcomment) hbelow
          · by_cases hblank : isBlank c = true
            · have hforward : file.Forward p (p.right 1) := .inl ⟨rfl, Nat.lt_succ_self _⟩
              exact blank p c more hp hrest hblank
                (ih _ (left_lt_of_advance hline hforward) hp rfl)
            · rw [Bool.not_eq_true] at hcomment hblank
              refine piece p c more hp hrest hblank hcomment fun a ha => ?_
              have hstart : (file.cursor p).atLineEnd = false := by
                rw [Cursor.atLineEnd_eq]
                exact hline
              have hforward := advances (file.cursor p) a hstart ha
              exact ih _ (left_lt_of_advance hline hforward) (hforward.lt_lineCount hp) rfl

/-- Every piece that is read has what reading gives each piece. -/
theorem forall_mem_of_piecesFrom {P : α → Prop} {as : List α}
    (h : ∀ p a, (readAt (file.cursor p)).outcome = .ok a → P a)
    (hp : p.line < file.lineCount) (has : piecesFrom advances p = .ok as) : ∀ a ∈ as, P a := by
  refine reading_induct advances
    (motive := fun p => ∀ as, piecesFrom advances p = .ok as → ∀ a ∈ as, P a)
    ?below ?blank ?piece hp as has
  case below =>
    intro p _ hrest ih as has
    rw [piecesFrom_passed hrest, piecesOfLine] at has
    split at has
    · next hline => exact ih hline as has
    · cases has
      exact List.forall_mem_nil _
  case blank =>
    intro p c more _ hrest hc ih as has
    rw [piecesFrom_blank hrest hc] at has
    exact ih as has
  case piece =>
    intro p c more _ hrest hblank hcomment ih as has
    obtain ⟨a, behind, ha, hbehind, rfl⟩ := (piecesFrom_eq_ok_iff hrest hblank hcomment).1 has
    exact List.forall_mem_cons.2 ⟨h p a ha, ih a ha behind hbehind⟩

end File
end Kiln
