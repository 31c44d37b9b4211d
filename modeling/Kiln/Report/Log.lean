import Kiln.Report.Diagnostic

/-!
# The log of a run

A log keeps every diagnostic that is added and the greatest severity among them.
A diagnostic that reaches the log's threshold escalates: the run has failed.
-/

namespace Kiln

/-- A diagnostic reached the threshold. -/
structure Escalation where
  severity : Severity
  threshold : Severity
  deriving DecidableEq

/-- The wording of an escalation. -/
def Escalation.message (e : Escalation) : String :=
  e.severity.name ++ " reached the reporting threshold (" ++ e.threshold.name ++ ")"

/-- The diagnostics of a run. -/
structure Log where
  threshold : Severity
  highest : Severity
  entries : List Diagnostic

namespace Log

/-- A log without entries. -/
def empty (threshold : Severity) : Log := ⟨threshold, .ignored, []⟩

/-- Adds a diagnostic; says whether it escalates. -/
def add (log : Log) (d : Diagnostic) : Log × Option Escalation :=
  (⟨log.threshold, log.highest.max d.main.severity, log.entries ++ [d]⟩,
    if d.main.severity.reaches log.threshold then some ⟨d.main.severity, log.threshold⟩
    else none)

/-- Adds the entries of another log. -/
def append (log other : Log) : Log :=
  let entries := log.entries ++ other.entries
  ⟨log.threshold, (entries.map (·.main.severity)).foldl Severity.max .ignored, entries⟩

/-- Whether an entry has reached the threshold. -/
def hasErrors (log : Log) : Bool :=
  !log.entries.isEmpty && log.highest.reaches log.threshold

/-- How many entries have a severity. -/
def count (log : Log) (severity : Severity) : Nat :=
  log.entries.countP fun d => d.main.severity == severity

end Log
end Kiln
