import Kiln.Text.Escape

/-!
# Lines of a source file

A line is an array of code points, the terminator it ended in and its place in the
file.  Columns are counted in code points throughout, and a column is an index of
the array.
-/

namespace Kiln

/-- How a line ends: only the last line of a file may have no terminator. -/
inductive Ending where
  | unterminated
  | lf
  | cr
  | crlf
  deriving DecidableEq

/-- The code points of a terminator. -/
def Ending.chars : Ending → List Char
  | .unterminated => []
  | .lf => ['\n']
  | .cr => ['\r']
  | .crlf => ['\r', '\n']

/-- A terminator as an excerpt shows it. -/
def Ending.escaped : Ending → List Char
  | .unterminated => []
  | .lf => ['\\', 'n']
  | .cr => ['\\', 'r']
  | .crlf => ['\\', 'r', '\\', 'n']

/-- The name of an ending. -/
def Ending.label : Ending → String
  | .unterminated => "None"
  | .lf => "Lf"
  | .cr => "Cr"
  | .crlf => "CrLf"

/-- A line: its index in the file, counted from 0, its code points without the
terminator, and the terminator.  The text of the code points is kept with them, as
lines are told apart by it. -/
structure Line where
  index : Nat
  chars : Array Char
  ending : Ending
  text : String := String.ofList chars.toList
  text_eq : text = String.ofList chars.toList := by rfl

namespace Line

/-- Lines with the same index, code points and ending are equal. -/
@[ext] theorem ext {a b : Line} (hindex : a.index = b.index) (hchars : a.chars = b.chars)
    (hending : a.ending = b.ending) : a = b := by
  obtain ⟨index, chars, ending, text, htext⟩ := a
  obtain ⟨index', chars', ending', text', htext'⟩ := b
  simp only at hindex hchars hending
  subst hindex hchars hending htext htext'
  rfl

theorem chars_eq_of_text_eq {a b : Line} (h : a.text = b.text) : a.chars = b.chars := by
  rw [a.text_eq, b.text_eq, String.ofList_inj] at h
  exact Array.toList_inj.1 h

/-- Equal lines have the same parts.  Excerpts of one file share its lines, so two
references to one line are told equal without a look at the parts. -/
instance : DecidableEq Line := fun a b =>
  withPtrEqDecEq a b fun _ =>
    decidable_of_iff (a.index = b.index ∧ a.ending = b.ending ∧ a.text = b.text)
      ⟨fun h => ext h.1 (chars_eq_of_text_eq h.2.2) h.2.1, fun h => h ▸ ⟨rfl, rfl, rfl⟩⟩

/-- The line that stands for one a file does not have. -/
instance : Inhabited Line := ⟨{ index := 0, chars := #[], ending := .unterminated }⟩

/-- The line's number as messages give it, counted from 1. -/
def number (line : Line) : Nat := line.index + 1

/-- The number of code points, the terminator left out. -/
def length (line : Line) : Nat := line.chars.size

/-- The code points from one column up to another, as far as the line goes. -/
def slice (line : Line) (start stop : Nat) : List Char :=
  (line.chars.extract start stop).toList

/-- The line with its index, quoted text and ending, for traces. -/
def trace (line : Line) : String :=
  "Line(" ++ toString line.index ++ ", " ++ quoted line.text ++ ", " ++ line.ending.label ++ ")"

end Line
end Kiln
