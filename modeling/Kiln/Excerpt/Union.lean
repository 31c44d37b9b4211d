import Kiln.Excerpt.Basic
import Kiln.Excerpt.Slot

/-!
# Merging excerpts

`Excerpt.merge` adds one excerpt to another of the same file: highlights of a
line that is covered already go to that line, other lines are put in line order,
and lines above and below are taken over where there are none yet.  The detached
excerpt changes nothing.

`join` merges a list and fails on excerpts of two files; `union` is for excerpts
known to come from one file and leaves out those of any other.
-/

namespace Kiln

/-- Two excerpts of different files were to be merged. -/
structure FileMismatch where
  left : String
  right : String
  deriving DecidableEq

/-- The wording of a mismatch. -/
def FileMismatch.message (e : FileMismatch) : String :=
  "cannot join a context from `" ++ e.left ++ "` with one from `" ++ e.right ++ "`"

/-- Adds a span to an array of spans. -/
def Span.place (spans : Array Span) (span : Span) : Array Span :=
  match Slot.find (·.line.index) spans span.line.index with
  | .taken index => spans.modify index (·.highlightAll span.highlights)
  | .free index => spans.insertIdxIfInBounds index span

namespace Excerpt

/-- The files of two excerpts, if they are different ones. -/
def mismatch? (e other : Excerpt) : Option FileMismatch :=
  match e.file, other.file with
  | some left, some right => if left = right then none else some ⟨left, right⟩
  | _, _ => none

/-- Takes over the lines of an excerpt, and its file; the detached one has none to
give. -/
def absorb (e other : Excerpt) : Excerpt :=
  match e, other.file with
  | e, none => e
  | ⟨_, spans, leading, trailing⟩, some name =>
    { file := some name
      spans := other.spans.foldl Span.place spans
      leading := if leading.isEmpty then other.leading else leading
      trailing := if trailing.isEmpty then other.trailing else trailing }

/-- Adds an excerpt of the same file. -/
def merge (e other : Excerpt) : Except FileMismatch Excerpt :=
  match e.mismatch? other with
  | none => .ok (e.absorb other)
  | some mismatch => .error mismatch

/-- Merges excerpts of one file; fails at the first that names another file. -/
def join (es : List Excerpt) : Except FileMismatch Excerpt :=
  es.foldlM merge detached

/-- Adds an excerpt unless it names another file. -/
def add (e other : Excerpt) : Excerpt :=
  if (e.mismatch? other).isNone then e.absorb other else e

/-- Merges excerpts, leaving out those of another file than the first located
one. -/
def union (es : List Excerpt) : Excerpt :=
  es.foldl add detached

end Excerpt
end Kiln
