import Kiln.Source.File
import Kiln.Text.Blank

/-!
# Positions in a file

A position is a line index and a column, both counted from 0.  A column equal to
the length of the line is the line's end, and the end of the last line is the end
of the file.

A position moves by code points within a line (`stepInLine`), by code points over
line ends (`step`) and by lines (`nextLine`); `skipBlanks` and `skipBlanksInLine`
pass blanks with and without leaving the line.
-/

namespace Kiln

/-- A place in a file. -/
structure Position where
  line : Nat
  column : Nat
  deriving DecidableEq, Inhabited

/-- The position a number of columns to the right. -/
def Position.right (p : Position) (count : Nat) : Position :=
  ⟨p.line, p.column + count⟩

/-- What lies at some distance ahead of a position on its line. -/
structure Ahead where
  char : Option Char
  lineEnd : Bool
  fileEnd : Bool

namespace File

/-- The line of a position. -/
def lineAt (file : File) (p : Position) : Line := file.line p.line

/-- The code points from a position to the end of its line. -/
def rest (file : File) (p : Position) : List Char :=
  (file.lineAt p).chars.toList.drop p.column

/-- The code point at a position, if it is not at the end of its line. -/
def charAt (file : File) (p : Position) : Option Char :=
  (file.lineAt p).chars[p.column]?

/-- Whether no code point of the line is left. -/
def atLineEnd (file : File) (p : Position) : Bool :=
  (file.lineAt p).length ≤ p.column

/-- Whether no code point of the file is left. -/
def atEnd (file : File) (p : Position) : Bool :=
  file.atLineEnd p && p.line == file.lastIndex

/-- The end of a line. -/
def lineEnd (file : File) (index : Nat) : Position :=
  ⟨index, (file.line index).length⟩

/-- The end of the file. -/
def endPosition (file : File) : Position := file.lineEnd file.lastIndex

/-- What lies `offset` code points ahead; never looks past the line.  Columns have no
bound here, and `offset` is to be one for which a word holds the column. -/
def ahead (file : File) (p : Position) (offset : Nat) : Ahead :=
  let q := p.right offset
  ⟨file.charAt q, file.atLineEnd q, file.atEnd q⟩

/-- One code point to the right, stopping at the end of the line. -/
def stepInLine (file : File) (p : Position) : Position :=
  if file.atLineEnd p then p else p.right 1

/-- One code point on.  From the end of a line, the start of the next line that
is not empty, or the end of the file when there is none. -/
def step (file : File) (p : Position) : Position :=
  if file.atLineEnd p then
    match file.findLine? (fun line => !line.chars.isEmpty) (p.line + 1) with
    | some index => ⟨index, 0⟩
    | none => file.endPosition
  else p.right 1

/-- The start of the next line, if there is one. -/
def nextLine? (file : File) (p : Position) : Option Position :=
  if p.line < file.lastIndex then some ⟨p.line + 1, 0⟩ else none

/-- The start of the next line, or the end of the file on the last one. -/
def nextLine (file : File) (p : Position) : Position :=
  (file.nextLine? p).getD file.endPosition

/-- Whether a text stands at a position, on one line. -/
def startsWith (file : File) (p : Position) (text : List Char) : Bool :=
  text.isPrefixOf (file.rest p)

/-- Past a text that stands at the position, if it does. -/
def skipText? (file : File) (p : Position) (text : List Char) : Option Position :=
  if file.startsWith p text then some (p.right text.length) else none

/-- Past the code points of the line for which `accept` holds. -/
def skipWhile (file : File) (p : Position) (accept : Char → Bool) : Position :=
  p.right ((file.rest p).takeWhile accept).length

/-- Past blanks on the line. -/
def skipBlanksInLine (file : File) (p : Position) : Position :=
  file.skipWhile p isBlank

/-- Past blanks and line ends. -/
def skipBlanks (file : File) (p : Position) : Position :=
  let q := file.skipBlanksInLine p
  if file.atLineEnd q then
    if p.line < file.lastIndex then file.skipBlanks ⟨p.line + 1, 0⟩ else file.endPosition
  else q
termination_by file.lastIndex - p.line

/-- Whether only blanks come before a position on its line. -/
def onlyBlanksBefore (file : File) (p : Position) : Bool :=
  ((file.lineAt p).slice 0 p.column).all isBlank

end File

/-- A position as messages give it: file name, line and column counted from 1. -/
def Position.describe (p : Position) (name : String) : String :=
  name ++ ":" ++ toString (p.line + 1) ++ ":" ++ toString (p.column + 1)

end Kiln
