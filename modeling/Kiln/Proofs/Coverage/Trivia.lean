import Kiln.Proofs.Coverage.Stretches
import Kiln.Walk

/-!
# What is passed between pieces

Between two pieces of a file stand blanks and comments.  `Accounted` says that every
code point of a part of the file is covered by given stretches, or is a blank, or belongs
to a comment of which nothing is covered.
-/

namespace Kiln

/-! ## Lines of a file -/

/-- A file has a line, and its lines are numbered. -/
structure File.Numbered (file : File) : Prop where
  pos : 0 < file.lines.size
  index_eq : ∀ index ≤ file.lastIndex, (file.line index).index = index

theorem index_splitLinesAfter (cs : List Char) (index : Nat) (run : Array Char) (i : Nat)
    (h : i < (splitLinesAfter index run cs).length) :
    (splitLinesAfter index run cs)[i].index = index + i := by
  fun_induction splitLinesAfter index run cs generalizing i with
  | case1 => simp at h
  | case2 =>
      have hi : i = 0 := by simpa using h
      subst hi
      rfl
  | case3 index run cs ih =>
      cases i with
      | zero => rfl
      | succ i => simpa [Nat.add_comm, Nat.add_left_comm] using ih i (by simpa using h)
  | case4 index run cs ih =>
      cases i with
      | zero => rfl
      | succ i => simpa [Nat.add_comm, Nat.add_left_comm] using ih i (by simpa using h)
  | case5 index run cs _ ih =>
      cases i with
      | zero => rfl
      | succ i => simpa [Nat.add_comm, Nat.add_left_comm] using ih i (by simpa using h)
  | case6 index run c cs _ _ _ ih => exact ih i h

theorem splitLinesAfter_ne_nil (cs : List Char) (index : Nat) (run : Array Char)
    (h : run.isEmpty = false ∨ index = 0 ∨ cs ≠ []) : splitLinesAfter index run cs ≠ [] := by
  fun_induction splitLinesAfter index run cs with
  | case1 => simp_all
  | case2 => simp
  | case3 => simp
  | case4 => simp
  | case5 => simp
  | case6 index run c cs _ _ _ ih => exact ih (Or.inl (by simp))

/-- The file of a text has its lines numbered. -/
theorem File.numbered_ofText (name text : String) : (File.ofText name text).Numbered := by
  have hne : splitLines text.toList ≠ [] :=
    splitLinesAfter_ne_nil _ _ _ (Or.inr (Or.inl rfl))
  have hpos : 0 < (File.ofText name text).lines.size := by
    simpa [ofText] using List.length_pos_iff.2 hne
  refine ⟨hpos, ?_⟩
  intro index hle
  have hlt : index < (splitLines text.toList).length := by
    simp only [lastIndex, ofText, List.size_toArray] at hle hpos
    omega
  have hindex := index_splitLinesAfter text.toList 0 #[] index hlt
  rw [Nat.zero_add] at hindex
  have hline : (File.ofText name text).line index = (splitLines text.toList)[index] := by
    simp [line, ofText, hlt]
  rw [hline]
  exact hindex

/-! ## Code points -/

theorem File.charAt_eq_getElem? (file : File) (p : Position) :
    file.charAt p = (file.lineAt p).chars.toList[p.column]? := by
  rw [charAt, Array.getElem?_toList]

theorem File.rest_eq_cons {file : File} {p : Position} {c : Char} (h : file.charAt p = some c) :
    file.rest p = c :: file.rest (p.right 1) := by
  rw [charAt_eq_getElem?, List.getElem?_eq_some_iff] at h
  obtain ⟨hlt, rfl⟩ := h
  rw [rest_right, rest, List.drop_eq_getElem_cons hlt]
  rfl

theorem File.head?_rest (file : File) (p : Position) : (file.rest p).head? = file.charAt p := by
  rw [charAt_eq_getElem?, rest, List.head?_drop]

theorem File.charAt_right (file : File) (p : Position) (count : Nat) :
    file.charAt (p.right count) = (file.rest p)[count]? := by
  rw [charAt_eq_getElem?, rest, List.getElem?_drop]
  rfl

theorem File.atLineEnd_eq_false_iff {file : File} {p : Position} :
    file.atLineEnd p = false ↔ ∃ c, file.charAt p = some c := by
  rw [atLineEnd, decide_eq_false_iff_not, Nat.not_le, Line.length, charAt]
  constructor
  · intro h
    exact ⟨_, Array.getElem?_eq_getElem h⟩
  · rintro ⟨c, hc⟩
    exact (Array.getElem?_eq_some_iff.1 hc).1

theorem File.column_lt_of_charAt {file : File} {p : Position} {c : Char}
    (h : file.charAt p = some c) : p.column < (file.lineAt p).length :=
  (Array.getElem?_eq_some_iff.1 h).1

/-- A position on a line as one to the right of another. -/
theorem Position.eq_right {p x : Position} (hline : x.line = p.line)
    (hcolumn : p.column ≤ x.column) : x = p.right (x.column - p.column) := by
  obtain ⟨line, column⟩ := x
  simp only at hline hcolumn
  subst hline
  rw [right, Nat.add_sub_cancel' hcolumn]

/-- What is passed over while a test holds passes the test. -/
theorem File.accept_of_skipWhile {file : File} {p x : Position} {accept : Char → Bool} {c : Char}
    (hline : x.line = p.line) (hcolumn : p.column ≤ x.column)
    (hlt : x.column < (file.skipWhile p accept).column) (hc : file.charAt x = some c) :
    accept c = true := by
  rw [Position.eq_right hline hcolumn, charAt_right] at hc
  have hlen : x.column - p.column < ((file.rest p).takeWhile accept).length := by
    simp only [skipWhile, Position.right] at hlt
    omega
  obtain ⟨more, hmore⟩ := List.takeWhile_prefix (l := file.rest p) accept
  rw [← hmore, List.getElem?_append_left hlen] at hc
  exact List.all_eq_true.1 List.all_takeWhile c (List.mem_of_getElem? hc)

/-! ## Accounting for code points -/

/-- Whether one of some stretches covers a position. -/
def Covered (rs : List Stretch) (p : Position) : Prop := ∃ r ∈ rs, r.Covers p

/-- Whether a position belongs to a comment that begins at `p` or further on, is over
before `q`, and of which nothing is covered. -/
def InComment (file : File) (rs : List Stretch) (p q x : Position) : Prop :=
  x.line < q.line ∧ ∃ start : Position, start.line = x.line ∧ p ≤ start ∧ start ≤ x ∧
    file.startsWith start commentMark = true ∧
    ∀ y : Position, y.line = x.line → start ≤ y → ¬Covered rs y

/-- Every code point from `p` up to `q` is covered or a blank or in a comment. -/
structure Accounted (file : File) (rs : List Stretch) (p q : Position) : Prop where
  le : p ≤ q
  cases : ∀ x c, p ≤ x → x < q → file.charAt x = some c →
    Covered rs x ∨ isBlank c = true ∨ InComment file rs p q x

/-- The position below the last line. -/
def File.bottom (file : File) : Position := ⟨file.lineCount, 0⟩

theorem File.lt_bottom {file : File} {p : Position} {c : Char} (h : file.charAt p = some c) :
    p < file.bottom := by
  apply Or.inl
  rcases Nat.lt_or_ge p.line file.lines.size with hlt | hge
  · exact hlt
  · have hline : file.lineAt p = default := by simp [lineAt, line, Nat.not_lt.2 hge]
    rw [charAt, hline] at h
    simp [default] at h

theorem File.line_le_lastIndex {file : File} {p : Position} {c : Char}
    (h : file.charAt p = some c) : p.line ≤ file.lastIndex := by
  have hlt := lt_bottom h
  simp only [Position.lt_def, bottom, lineCount] at hlt
  simp only [lastIndex]
  omega

theorem InComment.mono {file : File} {rs : List Stretch} {p p' q q' x : Position} (hp : p' ≤ p)
    (hq : q ≤ q') (h : InComment file rs p q x) : InComment file rs p' q' x := by
  obtain ⟨hover, start, hline, hle, hrest⟩ := h
  rw [Position.le_def] at hq
  exact ⟨by omega, start, hline, Position.le_trans hp hle, hrest⟩

theorem Accounted.trans {file : File} {rs : List Stretch} {p q r : Position}
    (hpq : Accounted file rs p q) (hqr : Accounted file rs q r) : Accounted file rs p r := by
  refine ⟨Position.le_trans hpq.le hqr.le, ?_⟩
  intro x c hpx hxr hc
  rcases Position.lt_or_le x q with hxq | hqx
  · rcases hpq.cases x c hpx hxq hc with hcovered | hblank | hcomment
    · exact Or.inl hcovered
    · exact Or.inr (Or.inl hblank)
    · exact Or.inr (Or.inr (hcomment.mono (Position.le_refl p) hqr.le))
  · rcases hqr.cases x c hqx hxr hc with hcovered | hblank | hcomment
    · exact Or.inl hcovered
    · exact Or.inr (Or.inl hblank)
    · exact Or.inr (Or.inr (hcomment.mono hpq.le (Position.le_refl r)))

/-- Stretches that begin at `q` or further on change nothing before it. -/
theorem Accounted.append_right {file : File} {rs more : List Stretch} {p q : Position}
    (h : Accounted file rs p q) (hmore : ∀ r ∈ more, q ≤ r.first) :
    Accounted file (rs ++ more) p q := by
  refine ⟨h.le, ?_⟩
  intro x c hpx hxq hc
  rcases h.cases x c hpx hxq hc with ⟨r, hr, hcovers⟩ | hblank | ⟨hover, start, hline, hle, hx, hmark, hun⟩
  · exact Or.inl ⟨r, List.mem_append_left _ hr, hcovers⟩
  · exact Or.inr (Or.inl hblank)
  · refine Or.inr (Or.inr ⟨hover, start, hline, hle, hx, hmark, ?_⟩)
    rintro y hy hstart ⟨r, hr, hcovers⟩
    rcases List.mem_append.1 hr with hr | hr
    · exact hun y hy hstart ⟨r, hr, hcovers⟩
    · have hfirst := hmore r hr
      have hsame := hcovers.1
      simp only [Position.le_def, Stretch.first] at hfirst
      omega

/-- Stretches that are over at `p` change nothing behind it. -/
theorem Accounted.append_left {file : File} {rs done : List Stretch} {p q : Position}
    (h : Accounted file rs p q) (hdone : ∀ r ∈ done, r.last ≤ p) :
    Accounted file (done ++ rs) p q := by
  refine ⟨h.le, ?_⟩
  intro x c hpx hxq hc
  rcases h.cases x c hpx hxq hc with ⟨r, hr, hcovers⟩ | hblank | ⟨hover, start, hline, hle, hx, hmark, hun⟩
  · exact Or.inl ⟨r, List.mem_append_right _ hr, hcovers⟩
  · exact Or.inr (Or.inl hblank)
  · refine Or.inr (Or.inr ⟨hover, start, hline, hle, hx, hmark, ?_⟩)
    rintro y hy hstart ⟨r, hr, hcovers⟩
    rcases List.mem_append.1 hr with hr | hr
    · have hlast := Position.le_trans (hdone r hr) (Position.le_trans hle hstart)
      obtain ⟨hsame, -, hstop⟩ := hcovers
      simp only [Position.le_def, Stretch.last] at hlast
      omega
    · exact hun y hy hstart ⟨r, hr, hcovers⟩

/-- What a stretch covers is accounted for. -/
theorem accounted_of_mem {file : File} {rs : List Stretch} {r : Stretch} (hr : r ∈ rs)
    (hle : r.start ≤ r.stop) : Accounted file rs r.first r.last := by
  refine ⟨Or.inr ⟨rfl, hle⟩, ?_⟩
  intro x c hfirst hlast _
  refine Or.inl ⟨r, hr, ?_⟩
  simp only [Position.le_def, Position.lt_def, Stretch.first, Stretch.last] at hfirst hlast
  exact ⟨by omega, by omega, by omega⟩

/-- Blanks are accounted for. -/
theorem accounted_skipBlanksInLine {file : File} {rs : List Stretch} (p : Position) :
    Accounted file rs p (file.skipBlanksInLine p) := by
  refine ⟨Or.inr ⟨rfl, Nat.le_add_right _ _⟩, ?_⟩
  intro x c hpx hxq hc
  have hsameLine : (file.skipBlanksInLine p).line = p.line := rfl
  rw [Position.le_def] at hpx
  rw [Position.lt_def] at hxq
  have hline : x.line = p.line := by omega
  have hcolumn : p.column ≤ x.column := by omega
  have hlt : x.column < (file.skipBlanksInLine p).column := by omega
  exact Or.inr (Or.inl (File.accept_of_skipWhile hline hcolumn hlt hc))

/-- The rest of a line that has nothing but blanks and a comment is accounted for. -/
theorem accounted_lineEnd {file : File} {rs : List Stretch} {p q : Position}
    (hend : file.atLineEnd p = true ∨ file.startsWith p commentMark = true)
    (hrs : ∀ r ∈ rs, r.line = p.line → r.last ≤ p) (hq : q = ⟨p.line + 1, 0⟩) :
    Accounted file rs p q := by
  subst hq
  refine ⟨Or.inl (Nat.lt_succ_self _), ?_⟩
  intro x c hpx hxq hc
  have hline : x.line = p.line := by
    simp only [Position.le_def, Position.lt_def] at hpx hxq
    omega
  rcases hend with hend | hcomment
  · have hlength := File.column_lt_of_charAt hc
    have hlineAt : file.lineAt x = file.lineAt p := by simp only [File.lineAt, hline]
    rw [hlineAt] at hlength
    rw [File.atLineEnd, decide_eq_true_iff] at hend
    rw [Position.le_def] at hpx
    omega
  · refine Or.inr (Or.inr ⟨?_, p, hline.symm, Position.le_refl p, hpx, hcomment, ?_⟩)
    · show x.line < p.line + 1
      omega
    · rintro y hy hle ⟨r, hr, hsame, -, hstop⟩
      have hlast := Position.le_trans (hrs r hr (by omega)) hle
      simp only [Position.le_def, Stretch.last] at hlast
      omega

/-! ## Skipping trivia -/

namespace Cursor

variable {file : File}

theorem position_skipBlanksInLine (c : Cursor file) :
    c.skipBlanksInLine.position = file.skipBlanksInLine c.position := by
  rw [skipBlanksInLine, c.rest_eq]
  rfl

theorem startsWith_eq (c : Cursor file) (text : List Char) :
    c.startsWith text = file.startsWith c.position text := by
  rw [startsWith, c.rest_eq]
  rfl

/-- Before the end of the file skipping trivia does not go back. -/
theorem le_skipTrivia {c : Cursor file} (h : c.skipTrivia.atEnd = false) :
    c.position ≤ c.skipTrivia.position := by
  rcases File.skipTrivia_cases c with hend | ⟨-, hsame | hlater⟩
  · rw [atEnd_eq, hend, File.atEnd_endPosition] at h
    cases h
  · exact Or.inr ⟨hsame.1.symm, hsame.2⟩
  · exact Or.inl hlater.1

theorem drop_length_takeWhile {α : Type} (accept : α → Bool) (as : List α) :
    as.drop (as.takeWhile accept).length = as.dropWhile accept := by
  induction as with
  | nil => rfl
  | cons a as ih => cases h : accept a <;> simp [h, ih]

/-- Skipping trivia stops at the end of the file or at something else. -/
theorem skipTrivia_stops {c : Cursor file} (h : c.skipTrivia.atEnd = false) :
    ∃ ch, file.charAt c.skipTrivia.position = some ch ∧ isBlank ch = false ∧
      file.startsWith c.skipTrivia.position commentMark = false := by
  fun_induction Cursor.skipTrivia c with
  | case1 c d hstop hline ih => exact ih h
  | case2 c d hstop hline =>
      rw [atEnd_eq, File.position_cursor, File.atEnd_endPosition] at h
      cases h
  | case3 c d hstop =>
      simp only [Bool.or_eq_true, not_or, Bool.not_eq_true] at hstop
      obtain ⟨hend, hcomment⟩ := hstop
      rw [atLineEnd_eq, File.atLineEnd_eq_false_iff] at hend
      obtain ⟨ch, hch⟩ := hend
      rw [startsWith_eq] at hcomment
      refine ⟨ch, hch, ?_, hcomment⟩
      have hrest : d.rest = c.rest.dropWhile isBlank := drop_length_takeWhile isBlank c.rest
      have hhead : (c.rest.dropWhile isBlank).head? = some ch := by
        rw [← hrest, d.rest_eq, File.head?_rest, hch]
      have hnot := List.head?_dropWhile_not isBlank c.rest
      rw [hhead] at hnot
      simpa using hnot

/-- Where nothing but a comment is left of a line, skipping trivia leaves the line or
ends. -/
theorem skipTrivia_of_lineEnd {c : Cursor file}
    (h : file.atLineEnd c.position = true ∨ file.startsWith c.position commentMark = true) :
    c.skipTrivia.atEnd = true ∨ c.position.line < c.skipTrivia.position.line := by
  have hstop : (c.skipBlanksInLine.atLineEnd || c.skipBlanksInLine.startsWith commentMark) =
      true := by
    rcases h with h | h
    · rw [← atLineEnd_eq, atLineEnd, List.isEmpty_iff] at h
      simp [atLineEnd, skipBlanksInLine, right, h]
    · have hskip : c.skipBlanksInLine = c := by
        apply ext
        rw [← startsWith_eq, startsWith, commentMark] at h
        cases hrest : c.rest with
        | nil =>
            rw [hrest] at h
            cases h
        | cons ch rest =>
            rw [hrest, List.isPrefixOf_cons_cons, Bool.and_eq_true, beq_iff_eq] at h
            have hblank : isBlank ch = false := by
              rw [← h.1]
              decide
            simp [skipBlanksInLine, right, Position.right, hrest, hblank]
      rw [hskip, startsWith_eq, h, Bool.or_true]
  rw [skipTrivia, if_pos hstop]
  split
  · next hline =>
      cases hend : (file.cursor ⟨c.position.line + 1, 0⟩).skipTrivia.atEnd with
      | true => exact Or.inl rfl
      | false =>
          have hle := le_skipTrivia hend
          simp only [Position.le_def, File.position_cursor] at hle
          apply Or.inr
          omega
  · apply Or.inl
    rw [atEnd_eq, File.position_cursor, File.atEnd_endPosition]

/-- Where skipping trivia ends up: on a code point, or below the last line. -/
def passed (c : Cursor file) : Position :=
  if c.skipTrivia.atEnd then file.bottom else c.skipTrivia.position

theorem passed_of_atEnd {c : Cursor file} (h : c.skipTrivia.atEnd = true) :
    c.passed = file.bottom := if_pos h

theorem passed_of_not_atEnd {c : Cursor file} (h : c.skipTrivia.atEnd = false) :
    c.passed = c.skipTrivia.position := if_neg (by simp [h])

theorem le_passed {c : Cursor file} (hline : c.position.line < file.lineCount) :
    c.position ≤ c.passed := by
  cases hend : c.skipTrivia.atEnd with
  | true =>
      rw [passed_of_atEnd hend]
      exact Or.inl hline
  | false =>
      rw [passed_of_not_atEnd hend]
      exact le_skipTrivia hend

theorem accounted_skipBlanks (c : Cursor file) (rs : List Stretch) :
    Accounted file rs c.position c.skipBlanksInLine.position := by
  rw [c.position_skipBlanksInLine]
  exact accounted_skipBlanksInLine c.position

/-- The rest of a line without anything but a comment is accounted for, if all stretches
lie below it. -/
theorem accounted_nextLine {c : Cursor file} {rs : List Stretch}
    (hstop : (c.skipBlanksInLine.atLineEnd || c.skipBlanksInLine.startsWith commentMark) = true)
    (hbelow : ∀ r ∈ rs, c.position.line < r.line) :
    Accounted file rs c.position ⟨c.position.line + 1, 0⟩ := by
  have hlineEnd : file.atLineEnd c.skipBlanksInLine.position = true ∨
      file.startsWith c.skipBlanksInLine.position commentMark = true := by
    rwa [← atLineEnd_eq, ← startsWith_eq, ← Bool.or_eq_true]
  have hsameLine : c.skipBlanksInLine.position.line = c.position.line := by
    rw [c.position_skipBlanksInLine]
    rfl
  refine (c.accounted_skipBlanks rs).trans (accounted_lineEnd hlineEnd ?_ (by rw [hsameLine]))
  intro r hr hsame
  have hlt := hbelow r hr
  omega

theorem passed_of_nextLine {c : Cursor file}
    (hstop : (c.skipBlanksInLine.atLineEnd || c.skipBlanksInLine.startsWith commentMark) = true)
    (hmore : c.position.line < file.lastIndex) :
    c.passed = (file.cursor ⟨c.position.line + 1, 0⟩).passed := by
  rw [passed, passed, skipTrivia, if_pos hstop, if_pos hmore]

theorem passed_of_lastLine {c : Cursor file}
    (hstop : (c.skipBlanksInLine.atLineEnd || c.skipBlanksInLine.startsWith commentMark) = true)
    (hline : c.position.line < file.lineCount) (hlast : ¬c.position.line < file.lastIndex) :
    c.passed = ⟨c.position.line + 1, 0⟩ := by
  have hbottom : file.bottom = ⟨c.position.line + 1, 0⟩ := by
    simp only [File.lastIndex] at hlast
    simp only [File.lineCount] at hline
    rw [File.bottom, File.lineCount, Position.mk.injEq]
    omega
  rw [← hbottom, passed, skipTrivia, if_pos hstop, if_neg hlast, atEnd_eq, File.position_cursor,
    File.atEnd_endPosition, if_pos rfl]

theorem passed_of_here {c : Cursor file}
    (hstop : ¬(c.skipBlanksInLine.atLineEnd || c.skipBlanksInLine.startsWith commentMark) = true) :
    c.passed = c.skipBlanksInLine.position := by
  have hhere : c.skipTrivia = c.skipBlanksInLine := by rw [skipTrivia, if_neg hstop]
  rw [Bool.or_eq_true, not_or, Bool.not_eq_true] at hstop
  have hend : c.skipTrivia.atEnd = false := by
    rw [hhere, atEnd, hstop.1, Bool.false_and]
  rw [passed_of_not_atEnd hend, hhere]

/-- What is skipped as trivia is accounted for, if all stretches lie further on. -/
theorem accounted_passed {c : Cursor file} {rs : List Stretch}
    (hrs : ∀ r ∈ rs, c.passed ≤ r.first) (hline : c.position.line < file.lineCount) :
    Accounted file rs c.position c.passed := by
  induction hn : file.lineCount - c.position.line using Nat.strongRecOn generalizing c with
  | ind n ih =>
      by_cases hstop : (c.skipBlanksInLine.atLineEnd ||
          c.skipBlanksInLine.startsWith commentMark) = true
      · by_cases hmore : c.position.line < file.lastIndex
        · have hnextLine : c.position.line + 1 < file.lineCount := by
            simp only [File.lastIndex] at hmore
            simp only [File.lineCount]
            omega
          have hnextPassed := le_passed (c := file.cursor ⟨c.position.line + 1, 0⟩) hnextLine
          rw [passed_of_nextLine hstop hmore] at hrs ⊢
          refine (accounted_nextLine hstop ?_).trans (ih _ ?_ hrs hnextLine rfl)
          · intro r hr
            have hfirst := Position.le_trans hnextPassed (hrs r hr)
            simp only [Position.le_def, Stretch.first, File.position_cursor] at hfirst
            omega
          · simp only [File.position_cursor]
            omega
        · rw [passed_of_lastLine hstop hline hmore] at hrs ⊢
          apply accounted_nextLine hstop
          intro r hr
          have hfirst := hrs r hr
          simp only [Position.le_def, Stretch.first] at hfirst
          omega
      · rw [passed_of_here hstop]
        exact c.accounted_skipBlanks rs

end Cursor
end Kiln
