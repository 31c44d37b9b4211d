import Kiln.Excerpt.Basic
import Kiln.Text.Columns

/-!
# Printing excerpts

An excerpt is printed line by line behind a gutter with the line number.  Below
each line that has highlights stands a row of indicators, and below the last one
a note may follow, under the first highlight:

```text
   2 |   return a + b
     |          ^
     |          unknown name
```

Indicators are placed by display columns.  A highlight at the end of a line
points at the terminator, which is then printed in escaped form.
-/

namespace Kiln

/-- What stands under a highlighted character. -/
def indicator : Char := '^'

/-- The width of the line numbers. -/
def gutterWidth : Nat := 4

/-- A row behind the gutter, which is left blank if there is no number. -/
def gutterRow (number : Option Nat) (text : List Char) : List Char :=
  let digits := (number.map fun n => Nat.toDigits 10 n).getD []
  List.replicate (gutterWidth - digits.length) ' ' ++ digits ++ [' ', '|', ' '] ++ text ++ ['\n']

variable [Display]

namespace Span

/-- The line as printed, its terminator in escaped form if a highlight points at
it. -/
def sourceRow (span : Span) : List Char :=
  span.line.chars.toList ++ if span.touchesEnd then span.line.ending.escaped else []

/-- The display column at which a code point of the line starts; the end of the
line for a column beyond it. -/
def displayColumn (span : Span) (column : Nat) : Nat :=
  (columns span.line.chars.toList).getD (min column span.line.length) 0

/-- The columns an indicator for a highlight covers: at least one, and those of
the escaped terminator at the end of the line. -/
def indicatorWidth (line : Line) (columns : Array Nat) (h : Highlight) : Nat :=
  if h.isPoint then
    if line.length ≤ h.start then max (displayWidth line.ending.escaped) 1 else 1
  else columns.getD (min h.stop line.length) 0 - columns.getD (min h.start line.length) 0

/-- The indicators for the remaining highlights once `written` columns are
drawn.  A highlight that starts among these only extends what is there. -/
def indicatorsFrom (line : Line) (columns : Array Nat) (written : Nat) :
    List Highlight → List Char
  | [] => []
  | h :: hs =>
    let start := columns.getD (min h.start line.length) 0
    let width := indicatorWidth line columns h
    List.replicate (start - written) ' ' ++
      List.replicate (width - (written - start)) indicator ++
      indicatorsFrom line columns (max written (start + width)) hs

/-- The row of indicators below the line. -/
def indicators (span : Span) : List Char :=
  indicatorsFrom span.line (columns span.line.chars.toList).toArray 0 span.highlights.toList

/-- A note moved under the first highlight; an empty note has no row. -/
def noteRow? (span : Span) (note : List Char) : Option (List Char) :=
  if note.isEmpty then none
  else some (List.replicate (span.displayColumn (span.firstColumn?.getD 0)) ' ' ++ note)

/-- The rows printed for a line of an excerpt. -/
def rows (span : Span) : List Char :=
  gutterRow (some span.line.number) span.sourceRow ++
    if span.highlights.isEmpty then [] else gutterRow none span.indicators

end Span

/-- The rows printed for lines that nothing is highlighted on. -/
def plainRows (lines : List Line) : List Char :=
  lines.flatMap fun line => gutterRow (some line.number) line.chars.toList

namespace Excerpt

/-- The row printed for a note: none if the excerpt covers no line. -/
def noteRow (e : Excerpt) (note : Option String) : List Char :=
  match e.spans.back?, note with
  | some span, some note =>
    match span.noteRow? note.toList with
    | some row => gutterRow none row
    | none => []
  | _, _ => []

/-- The printed excerpt. -/
def render (e : Excerpt) (note : Option String) : String :=
  String.ofList
    (plainRows e.leading ++ e.spans.toList.flatMap Span.rows ++ e.noteRow note ++ plainRows e.trailing)

end Excerpt
end Kiln
