import Kiln.Source.Line
import Kiln.Text.Utf8

/-!
# Source files

A source file is a name and the lines of its text.  `splitLines` cuts a text at
every LF, CR and CR LF; a terminator at the very end opens no further line, and
the empty text is one empty line.
-/

namespace Kiln

/-- The lines of a text from line `index` on, `run` being the code points read so
far of that line. -/
def splitLinesAfter (index : Nat) (run : Array Char) : List Char → List Line
  | [] =>
    if run.isEmpty && 0 < index then []
    else [{ index, chars := run, ending := .unterminated }]
  | '\n' :: cs =>
    { index, chars := run, ending := .lf } :: splitLinesAfter (index + 1) #[] cs
  | '\r' :: '\n' :: cs =>
    { index, chars := run, ending := .crlf } :: splitLinesAfter (index + 1) #[] cs
  | '\r' :: cs =>
    { index, chars := run, ending := .cr } :: splitLinesAfter (index + 1) #[] cs
  | c :: cs => splitLinesAfter index (run.push c) cs

/-- The lines of a text. -/
def splitLines (cs : List Char) : List Line :=
  splitLinesAfter 0 #[] cs

/-- The text of a list of lines, terminators included. -/
def joinLines (lines : List Line) : List Char :=
  lines.flatMap fun line => line.chars.toList ++ line.ending.chars

/-- A source file. -/
structure File where
  name : String
  lines : Array Line

namespace File

/-- The file of a text. -/
def ofText (name text : String) : File :=
  ⟨name, (splitLines text.toList).toArray⟩

/-- The file of a list of octets, read as UTF-8. -/
def ofOctets (name : String) (octets : List UInt8) : File :=
  ⟨name, (splitLines (Utf8.decode octets)).toArray⟩

/-- The number of lines. -/
def lineCount (file : File) : Nat := file.lines.size

/-- The index of the last line. -/
def lastIndex (file : File) : Nat := file.lines.size - 1

/-- The line at an index; an empty line past the end. -/
def line (file : File) (index : Nat) : Line := file.lines.getD index default

/-- The index of the first line that is accepted, from `index` on. -/
def findLine? (file : File) (accept : Line → Bool) (index : Nat) : Option Nat :=
  if h : index < file.lines.size then
    if accept file.lines[index] then some index else file.findLine? accept (index + 1)
  else none
termination_by file.lines.size - index

/-- A line that is found is a line of the file, at or below the one from which the
search began. -/
theorem lt_size_of_findLine? {file : File} {accept : Line → Bool} {index found : Nat}
    (h : file.findLine? accept index = some found) : index ≤ found ∧ found < file.lines.size := by
  fun_induction findLine? file accept index with
  | case1 index hlt _ =>
    cases h
    exact ⟨Nat.le_refl _, hlt⟩
  | case2 index hlt _ ih => exact ⟨Nat.le_of_succ_le (ih h).1, (ih h).2⟩
  | case3 => cases h

end File
end Kiln
