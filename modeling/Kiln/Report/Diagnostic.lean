import Kiln.Excerpt.Layout
import Kiln.Report.Code
import Kiln.Report.Severity

/-!
# Diagnostics

A notice is one located message, with an optional note.  A diagnostic is a notice
followed by the notices on related places, and is printed as these one after the
other:

```text
main.kn:1:10: error: unexpected `s`, expected `<` or `"`
   1 | #include stdio.h
     |          ^
```
-/

namespace Kiln

variable [Display]

/-- A message about a place.  The code is for tools and is not printed. -/
structure Notice where
  severity : Severity
  code : Option Code
  message : String
  excerpt : Excerpt
  note : Option String
  deriving DecidableEq, Inhabited

/-- A notice and the notices on related places. -/
structure Diagnostic where
  main : Notice
  related : List Notice
  deriving DecidableEq, Inhabited

namespace Notice

/-- The first row: the place if there is one, the severity and the message. -/
def header (n : Notice) : String :=
  match n.excerpt.position? with
  | some position => position ++ ": " ++ n.severity.name ++ ": " ++ n.message ++ "\n"
  | none => n.severity.name ++ ": " ++ n.message ++ "\n"

/-- What follows the first row: the excerpt with the note, or the note on a row of
its own when no line is shown. -/
def body (n : Notice) : String :=
  if n.excerpt.spans.isEmpty then
    match n.note with
    | some note => "  = note: " ++ note ++ "\n"
    | none => ""
  else n.excerpt.render n.note

/-- The printed notice. -/
def text (n : Notice) : String := n.header ++ n.body

end Notice

namespace Diagnostic

/-- A message with neither code nor note. -/
def plain (severity : Severity) (message : String) (excerpt : Excerpt) : Diagnostic :=
  ⟨⟨severity, none, message, excerpt, none⟩, []⟩

/-- An error. -/
def error (code : Code) (message : String) (excerpt : Excerpt) : Diagnostic :=
  ⟨⟨.error, some code, message, excerpt, none⟩, []⟩

/-- A note on a place, to be related to an error. -/
def note (message : String) (excerpt : Excerpt) : Diagnostic :=
  plain .note message excerpt

/-- Sets the code. -/
def withCode (d : Diagnostic) (code : Code) : Diagnostic :=
  { d with main := { d.main with code := some code } }

/-- Sets the note, in place of an earlier one. -/
def withNote (d : Diagnostic) (note : String) : Diagnostic :=
  { d with main := { d.main with note := some note } }

/-- Relates another diagnostic, in place of an earlier one. -/
def withRelated (d other : Diagnostic) : Diagnostic :=
  { d with related := other.main :: other.related }

/-- The notices in the order in which they are printed. -/
def chain (d : Diagnostic) : List Notice := d.main :: d.related

/-- Whether the diagnostic is at least an error. -/
def isError (d : Diagnostic) : Bool := d.main.severity.reaches .error

/-- The printed diagnostic. -/
def text (d : Diagnostic) : String :=
  String.join (d.chain.map Notice.text)

end Diagnostic
end Kiln
