/-!
# Severities

How serious a message is, from `ignored` to `fatal`.
-/

namespace Kiln

/-- The severities, from the least to the greatest. -/
inductive Severity where
  | ignored
  | note
  | remark
  | warning
  | error
  | fatal
  deriving DecidableEq, Inhabited

namespace Severity

/-- The place of a severity in the order. -/
def rank : Severity → Nat
  | .ignored => 0
  | .note => 1
  | .remark => 2
  | .warning => 3
  | .error => 4
  | .fatal => 5

/-- Whether a severity reaches a threshold. -/
def reaches (severity threshold : Severity) : Bool :=
  threshold.rank ≤ severity.rank

/-- The greater of two severities. -/
def max (a b : Severity) : Severity :=
  if b.reaches a then b else a

/-- The name of a severity. -/
def name : Severity → String
  | .ignored => "ignored"
  | .note => "note"
  | .remark => "remark"
  | .warning => "warning"
  | .error => "error"
  | .fatal => "fatal"

/-- Every severity, in order. -/
def all : List Severity := [.ignored, .note, .remark, .warning, .error, .fatal]

/-- The severity of a name, or the reason why there is none. -/
def ofName (text : String) : Except String Severity :=
  match all.find? fun s => s.name == text with
  | some severity => .ok severity
  | none => .error ("unknown severity `" ++ text ++ "`")

end Severity
end Kiln
