/-!
# Display columns

Where the characters of a line stand on a monospaced display.  A tab moves to
the next multiple of `tabStop`, a wide character takes two columns, and every
other character takes one, marks of no width of their own included, so that each
character can be pointed at.

Which characters are wide is up to the display.
-/

namespace Kiln

/-- A monospaced display. -/
class Display where
  /-- How many columns a character takes by itself; none if it is for control only. -/
  width : Char → Option Nat

/-- Nothing in ASCII is wide. -/
class Display.NarrowAscii [Display] : Prop where
  width_ne_two : ∀ c : Char, c.val < 0x80 → Display.width c ≠ some 2

/-- Columns between two tab stops. -/
def tabStop : Nat := 8

section

variable [Display]

/-- Columns taken by a character other than a tab. -/
def charWidth (c : Char) : Nat :=
  if Display.width c = some 2 then 2 else 1

theorem charWidth_cases (c : Char) : charWidth c = 1 ∨ charWidth c = 2 := by
  rw [charWidth]
  split
  · exact Or.inr rfl
  · exact Or.inl rfl

/-- The column reached by printing a character at a column. -/
def advance (column : Nat) (c : Char) : Nat :=
  if c = '\t' then (column / tabStop + 1) * tabStop else column + charWidth c

/-- The column at which each character of a text starts when the text starts at
`column`, and last the column at which it ends. -/
def columnsFrom (column : Nat) : List Char → List Nat
  | [] => [column]
  | c :: cs => column :: columnsFrom (advance column c) cs

/-- The columns of a text printed from the left edge. -/
def columns (cs : List Char) : List Nat :=
  columnsFrom 0 cs

/-- The width of a text printed from the left edge. -/
def displayWidth (cs : List Char) : Nat :=
  cs.foldl advance 0

end
end Kiln
