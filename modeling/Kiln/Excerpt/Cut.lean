import Kiln.Excerpt.Basic
import Kiln.Source.Position

/-!
# Excerpts of positions

The excerpts that a reader of a file makes from positions: a stretch of a line, a
single code point, an empty place, a whole line, and the lines around what an
excerpt covers.

`File.cut` takes the stretch from one position to another and refuses two
positions of different lines or in the wrong order.
-/

namespace Kiln

/-- Two positions that bound no stretch of a line. -/
inductive CutError where
  | acrossLines (first second : Nat)
  | reversed (start stop : Nat)
  deriving DecidableEq

/-- The wording of a refused cut. -/
def CutError.message : CutError → String
  | .acrossLines first second =>
    "cannot extract a single-line span across lines " ++ toString first ++ " and " ++
      toString second
  | .reversed start stop => "span start " ++ toString start ++ " exceeds end " ++ toString stop

namespace File

/-- The text of a number of code points from a position on. -/
def textAt (file : File) (p : Position) (count : Nat) : String :=
  String.ofList ((file.rest p).take count)

/-- Highlights a number of columns from a position on. -/
def stretch (file : File) (p : Position) (count : Nat) : Excerpt :=
  .ofHighlight file.name (file.lineAt p) ⟨p.column, p.column + count⟩

/-- The empty place at a position. -/
def pointAt (file : File) (p : Position) : Excerpt :=
  file.stretch p 0

/-- The code point at a position, or the empty place at the end of a line. -/
def charExcerpt (file : File) (p : Position) : Excerpt :=
  if file.atLineEnd p then file.pointAt p else file.stretch p 1

/-- A line from its first to its last column. -/
def wholeLine (file : File) (index : Nat) : Excerpt :=
  file.stretch ⟨index, 0⟩ (file.line index).length

/-- Text and excerpt from one position to another on the same line. -/
def cut (file : File) (start stop : Position) : Except CutError (String × Excerpt) :=
  if start.line ≠ stop.line then .error (.acrossLines start.line stop.line)
  else if stop.column < start.column then .error (.reversed start.column stop.column)
  else
    let count := stop.column - start.column
    .ok (file.textAt start count, file.stretch start count)

/-- Shows up to `before` lines above and `after` lines below the lines of an
excerpt; around the position's line if the excerpt covers none.  Lines have no bound
here, and `after` is to be a number for which a word holds the index of the lowest. -/
def surround (file : File) (p : Position) (e : Excerpt) (before after : Nat) : Excerpt :=
  let first := (e.spans[0]?.map (·.line.index)).getD p.line
  let last := (e.spans.back?.map (·.line.index)).getD p.line
  { e with
    leading := (file.lines.extract (first - before) first).toList
    trailing := (file.lines.extract (last + 1) (last + 1 + after)).toList }

end File
end Kiln
