import Kiln.Source.Line

/-!
# Excerpts

An excerpt shows a part of a source file: the file's name, the lines it covers,
each with highlighted ranges of columns, and lines printed above and below for
orientation.  A token has an excerpt of one highlight; the excerpt of a larger
piece of a tree is the union of its tokens' excerpts.

An excerpt without a file is *detached*: it belongs to a tree that was not read
from a file.
-/

namespace Kiln

/-- The columns from `start` up to `stop`. -/
structure Highlight where
  start : Nat
  stop : Nat
  deriving DecidableEq

namespace Highlight

/-- The empty range at a column. -/
def point (column : Nat) : Highlight := ⟨column, column⟩

/-- The number of columns. -/
def length (h : Highlight) : Nat := h.stop - h.start

/-- Whether the range holds no column. -/
def isPoint (h : Highlight) : Bool := h.start == h.stop

/-- How many of the first `count` highlights come up to the last of them that
starts at a column or before it. -/
def countUpTo (hs : Array Highlight) (column : Nat) : Nat → Nat
  | 0 => 0
  | count + 1 =>
    match hs[count]? with
    | some h => if h.start ≤ column then count + 1 else countUpTo hs column count
    | none => countUpTo hs column count

theorem countUpTo_le (hs : Array Highlight) (column count : Nat) :
    countUpTo hs column count ≤ count := by
  fun_induction countUpTo hs column count with
  | case1 => exact Nat.le_refl _
  | case2 => exact Nat.le_refl _
  | case3 => omega
  | case4 => omega

/-- Adds a highlight to an array ordered by start, behind those that start at the
same column. -/
def insert (h : Highlight) (hs : Array Highlight) : Array Highlight :=
  hs.insertIdx (countUpTo hs h.start hs.size) h (countUpTo_le hs h.start hs.size)

end Highlight

/-- A line and its highlights, ordered by start. -/
structure Span where
  line : Line
  highlights : Array Highlight
  deriving DecidableEq

namespace Span

/-- A line on which nothing is highlighted. -/
def ofLine (line : Line) : Span := ⟨line, #[]⟩

/-- Adds a highlight. -/
def highlight (span : Span) (h : Highlight) : Span :=
  { span with highlights := h.insert span.highlights }

/-- Adds highlights one after the other. -/
def highlightAll (span : Span) (hs : Array Highlight) : Span :=
  hs.foldl highlight span

/-- Where the first highlight starts. -/
def firstColumn? (span : Span) : Option Nat :=
  span.highlights[0]?.map (·.start)

/-- Whether a highlight starts at the end of the line. -/
def touchesEnd (span : Span) : Bool :=
  span.highlights.any fun h => span.line.length ≤ h.start

/-- The code points of every highlight, one after the other. -/
def highlighted (span : Span) : List Char :=
  span.highlights.toList.flatMap fun h => span.line.slice h.start h.stop

end Span

/-- A part of a source file. -/
structure Excerpt where
  file : Option String
  spans : Array Span
  leading : List Line
  trailing : List Line
  deriving DecidableEq

namespace Excerpt

/-- The excerpt of what comes from no file. -/
def detached : Excerpt := ⟨none, #[], [], []⟩

instance : Inhabited Excerpt := ⟨detached⟩

/-- Names a file and shows none of its lines. -/
def ofFile (name : String) : Excerpt := ⟨some name, #[], [], []⟩

/-- Covers the given lines of a file. -/
def ofSpans (name : String) (spans : Array Span) : Excerpt := ⟨some name, spans, [], []⟩

/-- One highlight on one line. -/
def ofHighlight (name : String) (line : Line) (h : Highlight) : Excerpt :=
  ofSpans name #[⟨line, #[h]⟩]

/-- Whether the excerpt comes from no file. -/
def isDetached (e : Excerpt) : Bool := e.file.isNone

/-- Line and column of the first highlight, both counted from 1. -/
def start? (e : Excerpt) : Option (Nat × Nat) :=
  e.spans[0]?.map fun span => (span.line.number, span.firstColumn?.getD 0 + 1)

/-- The file with line and column of the first highlight, or the file alone when
no line is covered. -/
def position? (e : Excerpt) : Option String :=
  e.file.map fun name =>
    match e.start? with
    | some (line, column) => name ++ ":" ++ toString line ++ ":" ++ toString column
    | none => name

/-- The highlighted text, one line for each line covered. -/
def text (e : Excerpt) : String :=
  "\n".intercalate (e.spans.toList.map fun span => String.ofList span.highlighted)

end Excerpt
end Kiln
