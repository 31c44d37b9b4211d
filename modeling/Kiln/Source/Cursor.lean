import Kiln.Source.Position

/-!
# Cursors

A cursor is a position of a file together with what is left of its line.  There is
one cursor at each position (`Cursor.ext`), so whatever a cursor is asked follows
from where it stands; what it keeps makes the next look ahead as cheap as the
distance that it moves.
-/

namespace Kiln

/-- A position of a file together with what is left of its line. -/
structure Cursor (file : File) where
  position : Position
  rest : List Char
  rest_eq : rest = file.rest position

/-- The cursor at a position. -/
def File.cursor (file : File) (p : Position) : Cursor file := ⟨p, file.rest p, rfl⟩

@[simp] theorem File.position_cursor (file : File) (p : Position) :
    (file.cursor p).position = p := rfl

theorem File.rest_right (file : File) (p : Position) (count : Nat) :
    file.rest (p.right count) = (file.rest p).drop count := by
  simp [rest, lineAt, Position.right]

namespace Cursor

variable {file : File}

/-- Cursors at one position are equal. -/
theorem ext {c d : Cursor file} (h : c.position = d.position) : c = d := by
  obtain ⟨p, rest, hrest⟩ := c
  obtain ⟨q, more, hmore⟩ := d
  cases h
  rw [Cursor.mk.injEq]
  exact ⟨rfl, hrest.trans hmore.symm⟩

/-- Whether no code point of the line is left. -/
def atLineEnd (c : Cursor file) : Bool := c.rest.isEmpty

/-- Whether no code point of the file is left. -/
def atEnd (c : Cursor file) : Bool := c.atLineEnd && c.position.line == file.lastIndex

/-- The cursor a number of columns to the right. -/
def right (c : Cursor file) (count : Nat) : Cursor file :=
  ⟨c.position.right count, c.rest.drop count, by rw [c.rest_eq, file.rest_right]⟩

/-- The cursor at another position of the file; what is left of the line is taken
over if the position lies ahead on the same line. -/
def moveTo (c : Cursor file) (p : Position) : Cursor file :=
  if h : c.position.line = p.line ∧ c.position.column ≤ p.column then
    ⟨p, c.rest.drop (p.column - c.position.column), by
      rw [c.rest_eq, ← file.rest_right, Position.right, h.1, Nat.add_sub_of_le h.2]⟩
  else file.cursor p

/-- Whether a text stands at a cursor, on one line. -/
def startsWith (c : Cursor file) (text : List Char) : Bool := text.isPrefixOf c.rest

/-- The text of a number of code points from a cursor on. -/
def textAhead (c : Cursor file) (count : Nat) : String := String.ofList (c.rest.take count)

/-- Past blanks on the line. -/
def skipBlanksInLine (c : Cursor file) : Cursor file :=
  c.right (c.rest.takeWhile isBlank).length

@[simp] theorem position_moveTo (c : Cursor file) (p : Position) : (c.moveTo p).position = p := by
  unfold moveTo
  split <;> rfl

theorem moveTo_eq (c : Cursor file) (p : Position) : c.moveTo p = file.cursor p :=
  ext (c.position_moveTo p)

theorem atLineEnd_eq (c : Cursor file) : c.atLineEnd = file.atLineEnd c.position := by
  rw [atLineEnd, c.rest_eq, Bool.eq_iff_iff, File.atLineEnd, decide_eq_true_iff]
  simp [File.rest, Line.length]

theorem atEnd_eq (c : Cursor file) : c.atEnd = file.atEnd c.position := by
  rw [atEnd, atLineEnd_eq, File.atEnd]

end Cursor
end Kiln
