import Kiln.Proofs.Lexing.Texts
import Mathlib.Data.List.Chain

/-!
# Canonical lines

Cutting a text into lines loses nothing: the lines with their terminators, one after the
other, are the text again.  Not every list of lines comes from a text.  Those that do are
*canonical*, and each of them is cut out of its own text, so texts and canonical lists of
lines correspond to each other.
-/

namespace Kiln

/-! ## From texts to lines -/

theorem joinLines_cons (line : Line) (lines : List Line) :
    joinLines (line :: lines) = line.chars.toList ++ line.ending.chars ++ joinLines lines :=
  List.flatMap_cons

/-- What was read so far of a line, and the text from there on, are in its lines. -/
theorem joinLines_splitLinesAfter (index : Nat) (run : Array Char) (cs : List Char) :
    joinLines (splitLinesAfter index run cs) = run.toList ++ cs := by
  fun_induction splitLinesAfter index run cs with
  | case1 index run h =>
      have hrun : run = #[] := by
        simp only [Bool.and_eq_true, Array.isEmpty_iff] at h
        exact h.1
      rw [hrun]
      rfl
  | case2 => simp [joinLines, Ending.chars]
  | case3 index run cs ih =>
      rw [joinLines_cons, ih]
      simp [Ending.chars]
  | case4 index run cs ih =>
      rw [joinLines_cons, ih]
      simp [Ending.chars]
  | case5 index run cs _ ih =>
      rw [joinLines_cons, ih]
      simp [Ending.chars]
  | case6 index run c cs _ _ _ ih =>
      rw [ih]
      simp

/-- Lines that a text can be cut into.  A line feed right behind a carriage return would be
of one terminator with it, and the end of a text opens no line. -/
structure CanonicalLines (lines : List Line) : Prop where
  ne_nil : lines ≠ []
  index_eq : ∀ (i : Nat) (line : Line), lines[i]? = some line → line.index = i
  oneLine : ∀ line ∈ lines, OneLine line.chars.toList
  ended : ∀ line ∈ lines.dropLast, line.ending ≠ .unterminated
  filled : ∀ line ∈ lines.getLast?, line.ending = .unterminated → line.length = 0 → lines = [line]
  apart : lines.IsChain fun line next =>
    ¬(line.ending = .cr ∧ next.length = 0 ∧ next.ending = .lf)

theorem forall_mem_dropLast_cons {α : Type} {p : α → Prop} {a : α} {as : List α} (ha : p a)
    (has : ∀ x ∈ as.dropLast, p x) : ∀ x ∈ (a :: as).dropLast, p x := by
  cases as with
  | nil => exact List.forall_mem_nil _
  | cons b bs => exact List.forall_mem_cons.2 ⟨ha, has⟩

theorem ending_of_mem_dropLast {index : Nat} {run : Array Char} {cs : List Char} :
    ∀ line ∈ (splitLinesAfter index run cs).dropLast, line.ending ≠ .unterminated := by
  fun_induction splitLinesAfter index run cs with
  | case1 => exact List.forall_mem_nil _
  | case2 => exact List.forall_mem_nil _
  | case3 index run cs ih => exact forall_mem_dropLast_cons (by simp) ih
  | case4 index run cs ih => exact forall_mem_dropLast_cons (by simp) ih
  | case5 index run cs _ ih => exact forall_mem_dropLast_cons (by simp) ih
  | case6 index run c cs _ _ _ ih => exact ih

/-- A line that is not ended is the only one if it is empty. -/
def FilledFrom (index : Nat) (lines : List Line) : Prop :=
  ∀ line ∈ lines.getLast?, line.ending = .unterminated → line.length = 0 →
    index = 0 ∧ lines = [line]

theorem FilledFrom.cons {index : Nat} {line : Line} {lines : List Line}
    (hline : line.ending ≠ .unterminated) (h : FilledFrom (index + 1) lines) :
    FilledFrom index (line :: lines) := by
  intro last hlast hending hlength
  cases lines with
  | nil =>
      cases hlast
      exact absurd hending hline
  | cons next lines => exact absurd (h last hlast hending hlength).1 (Nat.succ_ne_zero index)

theorem filledFrom_splitLinesAfter (index : Nat) (run : Array Char) (cs : List Char) :
    FilledFrom index (splitLinesAfter index run cs) := by
  fun_induction splitLinesAfter index run cs with
  | case1 =>
      rintro line ⟨⟩
  | case2 index run h =>
      rintro line ⟨⟩ - hlength
      have hrun : run.isEmpty = true := Array.isEmpty_iff_size_eq_zero.2 hlength
      refine ⟨?_, rfl⟩
      simpa [hrun] using h
  | case3 index run cs ih => exact ih.cons (by simp)
  | case4 index run cs ih => exact ih.cons (by simp)
  | case5 index run cs _ ih => exact ih.cons (by simp)
  | case6 index run c cs _ _ _ ih => exact ih

/-- Only at a line feed does an empty line begin that is ended by one. -/
theorem head?_eq_lineFeed {index : Nat} {cs : List Char} {line : Line}
    (hline : line ∈ (splitLinesAfter index #[] cs).head?) (hlength : line.length = 0)
    (hending : line.ending = .lf) : cs.head? = some '\n' := by
  obtain ⟨lines, hlines⟩ := List.head?_eq_some_iff.1 hline
  have hchars := head_splitLinesAfter hlines
  rw [Array.toList_eq_nil_iff.2 (Array.eq_empty_of_size_eq_zero hlength), List.nil_append] at hchars
  cases cs with
  | nil =>
      rw [splitLinesAfter] at hlines
      split at hlines
      · cases hlines
      · cases hlines
        cases hending
  | cons c cs =>
      have hbreak : isLineBreak c = true := by
        by_contra hc
        simp [hc] at hchars
      have hc : c = '\n' ∨ c = '\r' := by simpa [isLineBreak] using hbreak
      rcases hc with rfl | rfl
      · rfl
      · -- a carriage return ends the line in another way
        by_cases hfeed : cs.head? = some '\n'
        · obtain ⟨cs', rfl⟩ := List.head?_eq_some_iff.1 hfeed
          rw [splitLinesAfter] at hlines
          cases hlines
          cases hending
        · rw [splitLinesAfter_return hfeed] at hlines
          cases hlines
          cases hending

theorem apart_splitLinesAfter (index : Nat) (run : Array Char) (cs : List Char) :
    (splitLinesAfter index run cs).IsChain fun line next =>
      ¬(line.ending = .cr ∧ next.length = 0 ∧ next.ending = .lf) := by
  fun_induction splitLinesAfter index run cs with
  | case1 => exact .nil
  | case2 => exact .singleton _
  | case3 index run cs ih => exact List.isChain_cons.2 ⟨by simp, ih⟩
  | case4 index run cs ih => exact List.isChain_cons.2 ⟨by simp, ih⟩
  | case5 index run cs hfeed ih =>
      refine List.isChain_cons.2 ⟨?_, ih⟩
      rintro next hnext ⟨-, hlength, hending⟩
      obtain ⟨cs', rfl⟩ := List.head?_eq_some_iff.1 (head?_eq_lineFeed hnext hlength hending)
      exact hfeed cs' rfl
  | case6 index run c cs _ _ _ ih => exact ih

/-- A text is cut into canonical lines. -/
theorem canonical_splitLines (cs : List Char) : CanonicalLines (splitLines cs) where
  ne_nil := splitLinesAfter_ne_nil cs 0 #[] (.inr (.inl rfl))
  index_eq i line h := by
    obtain ⟨hlt, rfl⟩ := List.getElem?_eq_some_iff.1 h
    exact (index_splitLinesAfter cs 0 #[] i hlt).trans (Nat.zero_add i)
  oneLine := oneLine_of_mem_splitLinesAfter oneLine_nil
  ended := ending_of_mem_dropLast
  filled line hlast hending hlength :=
    (filledFrom_splitLinesAfter 0 #[] cs line hlast hending hlength).2
  apart := apart_splitLinesAfter 0 #[] cs

/-! ## From lines to texts -/

/-- Canonical lines but for a number of them that are left out at the beginning. -/
structure CanonicalLinesFrom (index : Nat) (lines : List Line) : Prop where
  index_eq : ∀ (i : Nat) (line : Line), lines[i]? = some line → line.index = index + i
  oneLine : ∀ line ∈ lines, OneLine line.chars.toList
  ended : ∀ line ∈ lines.dropLast, line.ending ≠ .unterminated
  filled : FilledFrom index lines
  apart : lines.IsChain fun line next =>
    ¬(line.ending = .cr ∧ next.length = 0 ∧ next.ending = .lf)

theorem CanonicalLines.canonicalLinesFrom {lines : List Line} (h : CanonicalLines lines) :
    CanonicalLinesFrom 0 lines where
  index_eq i line hline := (h.index_eq i line hline).trans (Nat.zero_add i).symm
  oneLine := h.oneLine
  ended := h.ended
  filled line hlast hending hlength := ⟨rfl, h.filled line hlast hending hlength⟩
  apart := h.apart

namespace CanonicalLinesFrom

variable {index : Nat} {line : Line} {lines : List Line}

theorem tail (h : CanonicalLinesFrom index (line :: lines)) :
    CanonicalLinesFrom (index + 1) lines where
  index_eq i next hnext := by
    rw [h.index_eq (i + 1) next hnext]
    omega
  oneLine := (List.forall_mem_cons.1 h.oneLine).2
  ended last hlast := by
    cases lines with
    | nil => cases hlast
    | cons next lines => exact h.ended last (List.mem_cons_of_mem _ hlast)
  filled last hlast hending hlength := by
    cases lines with
    | nil => cases hlast
    | cons next lines => cases (h.filled last hlast hending hlength).2
  apart := h.apart.tail

/-- The text of what follows a line ended by a carriage return begins with no line feed. -/
theorem head?_joinLines_ne (h : CanonicalLinesFrom index (line :: lines))
    (hcr : line.ending = .cr) : (joinLines lines).head? ≠ some '\n' := by
  cases lines with
  | nil => simp [joinLines]
  | cons next lines =>
      have hchars : OneLine next.chars.toList := h.tail.oneLine next List.mem_cons_self
      rw [joinLines_cons]
      cases hnext : next.chars.toList with
      | cons c cs =>
          rw [hnext, oneLine_cons] at hchars
          simpa using hchars.1.1
      | nil =>
          have hlength : next.length = 0 := by
            rw [Line.length, ← Array.length_toList, hnext, List.length_nil]
          have happart := (List.isChain_cons.1 h.apart).1 next rfl
          cases hending : next.ending with
          | lf => exact absurd ⟨hcr, hlength, hending⟩ happart
          | cr => simp [Ending.chars]
          | crlf => simp [Ending.chars]
          | unterminated =>
              -- an empty line that is not ended would be the first
              cases lines with
              | nil => cases (h.tail.filled next rfl hending hlength).1
              | cons other lines => exact absurd hending (h.tail.ended next List.mem_cons_self)

/-- Canonical lines are cut out of their text again. -/
theorem splitLinesAfter_joinLines (h : CanonicalLinesFrom index lines)
    (hne : lines ≠ [] ∨ 0 < index) : splitLinesAfter index #[] (joinLines lines) = lines := by
  induction lines generalizing index with
  | nil =>
      have hpos : 0 < index := hne.resolve_left (· rfl)
      simp [joinLines, splitLinesAfter, hpos]
  | cons line lines ih =>
      have hmore := ih h.tail (.inr (Nat.succ_pos index))
      have hindex : index = line.index := (h.index_eq 0 line rfl).symm
      have hchars := h.oneLine line List.mem_cons_self
      rw [joinLines_cons, List.append_assoc, splitLinesAfter_append hchars, Array.empty_append,
        Array.toArray_toList]
      cases hending : line.ending with
      | lf =>
          rw [Ending.chars, List.singleton_append, splitLinesAfter, hmore]
          exact congrArg (· :: lines) (Line.ext hindex rfl hending.symm)
      | crlf =>
          rw [Ending.chars, List.cons_append, List.singleton_append, splitLinesAfter, hmore]
          exact congrArg (· :: lines) (Line.ext hindex rfl hending.symm)
      | cr =>
          rw [Ending.chars, List.singleton_append,
            splitLinesAfter_return (h.head?_joinLines_ne hending), hmore]
          exact congrArg (· :: lines) (Line.ext hindex rfl hending.symm)
      | unterminated =>
          have hlines : lines = [] := by
            cases lines with
            | nil => rfl
            | cons next lines => exact absurd hending (h.ended line List.mem_cons_self)
          subst hlines
          have hfilled : ¬(line.chars.isEmpty && decide (0 < index)) = true := by
            rw [Bool.and_eq_true, decide_eq_true_iff]
            rintro ⟨hempty, hpos⟩
            have hlength : line.length = 0 := Array.isEmpty_iff_size_eq_zero.1 hempty
            exact absurd (h.filled line rfl hending hlength).1 (Nat.ne_of_gt hpos)
          rw [Ending.chars, List.nil_append]
          simp only [joinLines, List.flatMap_nil, splitLinesAfter, if_neg hfilled]
          exact congrArg (· :: []) (Line.ext hindex rfl hending.symm)

end CanonicalLinesFrom

/-! ## The correspondence -/

/-- A text is what its lines and their terminators are one after the other, and its lines
are canonical; and canonical lines are the lines of what they are one after the other. -/
theorem File.lines_ofText_canonical (name : String) :
    (∀ text : String,
      joinLines (File.ofText name text).lines.toList = text.toList ∧
        CanonicalLines (File.ofText name text).lines.toList) ∧
    ∀ lines : List Line, CanonicalLines lines →
      (File.ofText name (String.ofList (joinLines lines))).lines.toList = lines := by
  refine ⟨fun text => ⟨?_, ?_⟩, fun lines h => ?_⟩
  · exact joinLines_splitLinesAfter 0 #[] text.toList
  · exact canonical_splitLines text.toList
  · rw [File.ofText, String.toList_ofList]
    exact h.canonicalLinesFrom.splitLinesAfter_joinLines (.inl h.ne_nil)

/-- Lines of which an empty one stands between a carriage return and a terminator of two
characters. -/
def mixedLines : List Line :=
  [{ index := 0, chars := #['a'], ending := .crlf },
    { (default : Line) with index := 1, ending := .cr },
    { (default : Line) with index := 2, ending := .crlf },
    { index := 3, chars := #['b'], ending := .unterminated }]

theorem File.lines_ofText_canonical_mixedLines :
    CanonicalLines mixedLines ∧
      (File.ofText "a.kn" (String.ofList (joinLines mixedLines))).lines.toList = mixedLines := by
  have hlines : splitLines ['a', '\r', '\n', '\r', '\r', '\n', 'b'] = mixedLines := rfl
  have h : CanonicalLines mixedLines := hlines ▸ canonical_splitLines _
  exact ⟨h, (File.lines_ofText_canonical "a.kn").2 mixedLines h⟩

end Kiln
