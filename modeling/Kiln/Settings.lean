import Kiln.Report.Severity
import Kiln.Report.Styled

/-!
# Settings

What a run can be told by the environment and by its arguments: from which
severity on a diagnostic fails it, when to use colours, and whether to run the
checks.
-/

namespace Kiln

/-- A setting that was refused. -/
inductive SettingError where
  | unknownOption (argument : String)
  | invalidValue (name reason : String)
  deriving DecidableEq

/-- The wording of a refusal. -/
def SettingError.message : SettingError → String
  | .unknownOption argument => "unknown option `" ++ argument ++ "`"
  | .invalidValue name reason => "invalid value for `" ++ name ++ "`: " ++ reason

/-- The settings of a run. -/
structure Settings where
  threshold : Severity
  color : ColorMode
  runChecks : Bool
  deriving DecidableEq

namespace Settings

/-- The settings of a run that is told nothing. -/
def initial : Settings := ⟨.error, .auto, true⟩

/-- Settings without colours. -/
def uncolored : Settings := { initial with color := .never }

/-- The environment variable that says when to use colours. -/
def colorVariable : String := "KILN_COLOR"

/-- A value read for a setting. -/
def readValue {α : Type} (name : String) (value : Except String α) : Except SettingError α :=
  value.mapError (.invalidValue name)

/-- Takes the value of the environment variable into account, if it is set. -/
def withColorVariable (s : Settings) (value : Option String) : Except SettingError Settings :=
  match value with
  | none => .ok s
  | some text =>
    (readValue colorVariable (ColorMode.ofValue text)).map fun color => { s with color }

/-- What follows `start` in an argument that begins with it. -/
def valueAfter? (start argument : String) : Option String :=
  if start.toList.isPrefixOf argument.toList then
    some (String.ofList (argument.toList.drop start.toList.length))
  else none

/-- Whether an argument is an option; a single hyphen is none. -/
def isOption (argument : String) : Bool :=
  argument.toList.head? == some '-' && argument != "-"

/-- Takes an option into account. -/
def applyOption (s : Settings) (argument : String) : Except SettingError Settings :=
  match valueAfter? "--color=" argument with
  | some value =>
    (readValue "--color" (ColorMode.ofValue value)).map fun color => { s with color }
  | none =>
    match valueAfter? "--threshold=" argument with
    | some value =>
      (readValue "--threshold" (Severity.ofName value)).map fun threshold => { s with threshold }
    | none =>
      if argument = "--no-check" then .ok { s with runChecks := false }
      else .error (.unknownOption argument)

/-- Takes the options among the arguments into account, up to the first that is
refused, and gives the arguments that are no options. -/
def applyArguments (s : Settings) : List String → Except SettingError (List String) × Settings
  | [] => (.ok [], s)
  | argument :: arguments =>
    if isOption argument then
      match s.applyOption argument with
      | .error e => (.error e, s)
      | .ok changed => changed.applyArguments arguments
    else
      let (positional, changed) := s.applyArguments arguments
      (positional.map (argument :: ·), changed)

end Settings
end Kiln
