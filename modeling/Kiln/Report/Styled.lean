import Kiln.Report.Diagnostic

/-!
# Diagnostics on a terminal

For a terminal a diagnostic is a sequence of segments, some of which have a
style.  With colours on, a styled segment is put between control sequences;
with colours off, every segment is its bare text.
-/

namespace Kiln

/-- When to use colours. -/
inductive ColorMode where
  /-- When the output is a terminal. -/
  | auto
  | always
  | never
  deriving DecidableEq

namespace ColorMode

/-- The name of a mode. -/
def label : ColorMode → String
  | .auto => "Auto"
  | .always => "Always"
  | .never => "Never"

/-- The mode of an option's value, or the reason why there is none. -/
def ofValue (text : String) : Except String ColorMode :=
  if text = "auto" then .ok .auto
  else if text = "always" then .ok .always
  else if text = "never" then .ok .never
  else .error ("unknown color mode `" ++ text ++ "` (expected `auto`, `always` or `never`)")

/-- Whether to use colours on an output. -/
def onOutput (mode : ColorMode) (isTerminal : Bool) : Bool :=
  match mode with
  | .auto => isTerminal
  | .always => true
  | .never => false

end ColorMode

/-- How a segment stands out. -/
inductive Style where
  | bold
  | red
  | yellow
  | green
  | cyan
  deriving DecidableEq

namespace Style

/-- The control sequence that starts a style. -/
def start : Style → String
  | .bold => "\x1b[1m"
  | .red => "\x1b[1;31m"
  | .yellow => "\x1b[1;33m"
  | .green => "\x1b[1;32m"
  | .cyan => "\x1b[1;36m"

/-- The control sequence that ends every style. -/
def reset : String := "\x1b[0m"

/-- The style of a severity's name. -/
def ofSeverity : Severity → Style
  | .fatal | .error => .red
  | .warning => .yellow
  | .remark => .green
  | .note | .ignored => .cyan

end Style

/-- A piece of output of one style. -/
structure Segment where
  text : String
  style : Option Style

namespace Segment

/-- Text without a style. -/
def plain (text : String) : Segment := ⟨text, none⟩

/-- Text with a style. -/
def styled (text : String) (style : Style) : Segment := ⟨text, some style⟩

/-- The segment as it is written. -/
def render (colored : Bool) (s : Segment) : String :=
  match s.style with
  | some style => if colored then style.start ++ s.text ++ Style.reset else s.text
  | none => s.text

/-- Segments as they are written. -/
def renderAll (colored : Bool) (segments : List Segment) : String :=
  String.join (segments.map (render colored))

end Segment

variable [Display]

/-- The segments of a notice: place, severity and message, then the excerpt or the
note. -/
def Notice.segments (n : Notice) : List Segment :=
  (match n.excerpt.position? with
    | some position => [.styled position .bold, .plain ": "]
    | none => []) ++
  [.styled n.severity.name (.ofSeverity n.severity), .plain ": ", .styled n.message .bold,
    .plain "\n"] ++
  if n.excerpt.spans.isEmpty then
    match n.note with
    | some note => [.plain "  = ", .styled "note" .bold, .plain (": " ++ note ++ "\n")]
    | none => []
  else [.plain (n.excerpt.render n.note)]

/-- The segments of a diagnostic. -/
def Diagnostic.segments (d : Diagnostic) : List Segment :=
  d.chain.flatMap Notice.segments

/-- A count with its noun. -/
def counted (count : Nat) (noun : String) : String :=
  if count = 1 then "1 " ++ noun else toString count ++ " " ++ noun ++ "s"

/-- The closing row of a run: what stopped it and how many warnings there were,
and nothing after a run without either. -/
def summarySegments (errors warnings : Nat) : List Segment :=
  if errors = 0 then
    if warnings = 0 then []
    else [.styled "warning" .yellow, .plain (": " ++ counted warnings "warning" ++ " emitted\n")]
  else
    let stopped :=
      if errors = 1 then "previous error" else toString errors ++ " previous errors"
    let warned := if warnings = 0 then "" else "; " ++ counted warnings "warning" ++ " emitted"
    [.styled "error" .red, .plain (": aborting due to " ++ stopped ++ warned ++ "\n")]

end Kiln
