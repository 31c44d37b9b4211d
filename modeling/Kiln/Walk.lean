import Kiln.Excerpt.Cut
import Kiln.Report.Diagnostic
import Kiln.Source.Cursor

/-!
# Walking through a file

A file is read piece by piece, blanks and comments between the pieces being
passed by `Cursor.skipTrivia`.  Reading a piece at a cursor gives the piece, or a
diagnostic, and the position reached (`Found`).

`File.readAll` reads pieces up to the end of the file.  It takes any way of
reading a piece that moves forward within the file (`Advances`), and therefore
ends.
-/

namespace Kiln

/-- What was found, and the position after it; after a failure, the position at
which it was noticed. -/
structure Found (α : Type) where
  outcome : Except Diagnostic α
  stop : Position

theorem map_eq_ok_iff {ε α β : Type} {f : α → β} {result : Except ε α} {b : β} :
    result.map f = .ok b ↔ ∃ a, result = .ok a ∧ f a = b := by
  cases result <;> simp [Except.map]

theorem map_eq_error_iff {ε α β : Type} {f : α → β} {result : Except ε α} {error : ε} :
    result.map f = .error error ↔ result = .error error := by
  cases result <;> simp [Except.map]

theorem exists_ok_of_isOk {ε α : Type} {result : Except ε α} (h : result.isOk = true) :
    ∃ a, result = .ok a := by
  cases result with
  | ok a => exact ⟨a, rfl⟩
  | error fault => cases h

theorem eq_ok_of_toOption {ε α : Type} {result : Except ε α} {a : α}
    (h : result.toOption = some a) : result = .ok a := by
  cases result with
  | ok a' => exact congrArg Except.ok (Option.some_inj.1 h)
  | error fault => cases h

theorem exists_error_of_isOk {ε α : Type} {result : Except ε α} (h : result.isOk = false) :
    ∃ fault, result = .error fault := by
  cases result with
  | error fault => exact ⟨fault, rfl⟩
  | ok a => cases h

/-- What begins a comment, which goes on to the end of the line. -/
def commentMark : List Char := ['/', '/']

/-- Past blanks, comments and line ends. -/
def Cursor.skipTrivia {file : File} (c : Cursor file) : Cursor file :=
  let d := c.skipBlanksInLine
  if d.atLineEnd || d.startsWith commentMark then
    if c.position.line < file.lastIndex then (file.cursor ⟨c.position.line + 1, 0⟩).skipTrivia
    else file.cursor file.endPosition
  else d
termination_by file.lastIndex - c.position.line
decreasing_by
  simp only [File.position_cursor]
  omega

namespace File

/-- `q` comes after `p`, on the same line or on a later line of the file. -/
def Forward (file : File) (p q : Position) : Prop :=
  (q.line = p.line ∧ p.column < q.column) ∨ (p.line < q.line ∧ q.line ≤ file.lastIndex)

/-- A way of reading pieces moves forward from every code point. -/
def Advances {α : Type} (file : File) (readAt : Cursor file → Found α) : Prop :=
  ∀ c a, c.atLineEnd = false → (readAt c).outcome = .ok a → file.Forward c.position (readAt c).stop

theorem atEnd_endPosition (file : File) : file.atEnd file.endPosition = true := by
  simp [atEnd, atLineEnd, lineAt, endPosition, lineEnd]

/-- Skipping trivia ends at the end of the file or on a code point, not before
where it began. -/
theorem skipTrivia_cases {file : File} (c : Cursor file) :
    c.skipTrivia.position = file.endPosition ∨
      (c.skipTrivia.atLineEnd = false ∧
        ((c.skipTrivia.position.line = c.position.line ∧
            c.position.column ≤ c.skipTrivia.position.column) ∨
          (c.position.line < c.skipTrivia.position.line ∧
            c.skipTrivia.position.line ≤ file.lastIndex))) := by
  fun_induction Cursor.skipTrivia c with
  | case1 c d hstop hline ih =>
    rcases ih with ih | ⟨hend, ih⟩
    · exact Or.inl ih
    · refine Or.inr ⟨hend, Or.inr ?_⟩
      simp only [position_cursor] at ih
      omega
  | case2 c d hstop hline => exact Or.inl rfl
  | case3 c d hstop =>
    simp only [Bool.or_eq_true, not_or, Bool.not_eq_true] at hstop
    exact Or.inr ⟨hstop.1, Or.inl ⟨rfl, Nat.le_add_right _ _⟩⟩

/-- How much of a list of lines there is to read: their code points and ends. -/
def extent : List Line → Nat
  | [] => 0
  | line :: lines => line.length + 1 + extent lines

theorem extent_append (lines more : List Line) :
    extent (lines ++ more) = extent lines + extent more := by
  induction lines with
  | nil => simp [extent]
  | cons line lines ih =>
    simp only [List.cons_append, extent, ih]
    omega

theorem extent_drop_le (lines : List Line) {m n : Nat} (h : m ≤ n) :
    extent (lines.drop n) ≤ extent (lines.drop m) := by
  obtain ⟨k, rfl⟩ := Nat.exists_eq_add_of_le h
  have hsplit := congrArg extent (List.take_append_drop k (lines.drop m))
  rw [extent_append, List.drop_drop] at hsplit
  omega

/-- What is left of a file at a position: the rest of its line and the lines below. -/
def left (file : File) (p : Position) : Nat :=
  ((file.lineAt p).length - p.column) + extent (file.lines.toList.drop (p.line + 1))

/-- Less is left of a file on a later line. -/
theorem left_lt_of_line_lt {file : File} {p r : Position} (hlt : p.line < r.line)
    (hlast : r.line ≤ file.lastIndex) : file.left r < file.left p := by
  have hsize : r.line < file.lines.toList.length := by
    simp only [lastIndex] at hlast
    simp only [Array.length_toList]
    omega
  have hline : file.lineAt r = file.lines.toList[r.line] := by
    simp only [Array.length_toList] at hsize
    simp [lineAt, line, hsize]
  have hle := extent_drop_le file.lines.toList (show p.line + 1 ≤ r.line from hlt)
  rw [List.drop_eq_getElem_cons hsize] at hle
  simp only [extent, ← hline] at hle
  simp only [left]
  omega

/-- Passing trivia and then moving forward leaves less of the file. -/
theorem left_lt_of_forward {file : File} {c : Cursor file} {r : Position}
    (hend : c.skipTrivia.atEnd = false)
    (hforward : c.skipTrivia.atLineEnd = false → file.Forward c.skipTrivia.position r) :
    file.left r < file.left c.position := by
  rcases skipTrivia_cases c with h | ⟨hline, hle⟩
  · rw [Cursor.atEnd_eq, h, atEnd_endPosition] at hend
    cases hend
  · have hr := hforward hline
    rw [Cursor.atLineEnd_eq] at hline
    generalize c.skipTrivia.position = q at hline hle hr
    generalize c.position = p at hle ⊢
    have hcolumn : q.column < (file.lineAt q).length := by
      simpa [atLineEnd] using hline
    rcases hr with ⟨hsame, hlt⟩ | ⟨hlt, hlast⟩
    · rcases hle with ⟨heq, hcol⟩ | ⟨hlt', hlast'⟩
      · have hq : file.lineAt q = file.lineAt p := by simp [lineAt, heq]
        have hr : file.lineAt r = file.lineAt p := by simp [lineAt, hsame, heq]
        rw [hq] at hcolumn
        simp only [left, hr, hsame, heq]
        omega
      · exact left_lt_of_line_lt (hsame ▸ hlt') (hsame ▸ hlast')
    · exact left_lt_of_line_lt (by omega) hlast

/-- The pieces from a cursor on. -/
def readAllFrom {α : Type} (file : File) (readAt : Cursor file → Found α)
    (advances : file.Advances readAt) (c : Cursor file) : Except Diagnostic (List α) :=
  if _hend : c.skipTrivia.atEnd then .ok []
  else
    match _hfound : (readAt c.skipTrivia).outcome with
    | .error d => .error d
    | .ok a =>
      (file.readAllFrom readAt advances
        (c.skipTrivia.moveTo (readAt c.skipTrivia).stop)).map (a :: ·)
termination_by file.left c.position
decreasing_by
  rw [Cursor.position_moveTo]
  exact left_lt_of_forward (Bool.eq_false_iff.2 _hend) fun hline => advances _ a hline _hfound

/-- Reading at the end of the file gives nothing more. -/
theorem readAllFrom_of_atEnd {α : Type} {file : File} {readAt : Cursor file → Found α}
    {advances : file.Advances readAt} {c : Cursor file}
    (h : c.skipTrivia.atEnd = true) :
    file.readAllFrom readAt advances c = .ok [] := by
  rw [readAllFrom, dif_pos h]

/-- Before the end of the file a piece is read, and then the pieces behind it. -/
theorem readAllFrom_of_not_atEnd {α : Type} {file : File} {readAt : Cursor file → Found α}
    {advances : file.Advances readAt} {c : Cursor file}
    (h : c.skipTrivia.atEnd = false) :
    file.readAllFrom readAt advances c =
      (readAt c.skipTrivia).outcome.bind fun a =>
        (file.readAllFrom readAt advances (file.cursor (readAt c.skipTrivia).stop)).map
          (a :: ·) := by
  rw [readAllFrom, dif_neg (by simp [h])]
  split
  · next d hd => rw [hd]; rfl
  · next a ha => rw [ha, Cursor.moveTo_eq]; rfl

/-- The pieces of a file. -/
def readAll {α : Type} (file : File) (readAt : Cursor file → Found α)
    (advances : file.Advances readAt) : Except Diagnostic (List α) :=
  file.readAllFrom readAt advances (file.cursor ⟨0, 0⟩)

end File
end Kiln
