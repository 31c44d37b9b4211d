import Kiln.Command
import Kiln.Text.Wide

/-!
# The command line

A run is given the environment variable for colours and its arguments, and ends
with an exit code and what it wrote to its two outputs.  `CommandLine.plan` settles
from the arguments what is to be done, and `CommandLine.execute` does it.
-/

namespace Kiln

/-- How a run ended. -/
structure RunResult where
  code : Nat
  stdout : String
  stderr : String

/-- What a run is to do. -/
structure Plan where
  settings : Settings
  command : Command
  path : String

/-- Why a run was refused. -/
inductive Refusal where
  /-- The environment variable has no valid value. -/
  | environment (e : SettingError)
  /-- An option is unknown or has no valid value. -/
  | option (e : SettingError)
  /-- There are not exactly a command and a file. -/
  | wrongCount
  /-- There is no such command. -/
  | unknownCommand (reason : String)

namespace CommandLine

/-- What the tool can be asked for. -/
def usage : String :=
  "Kiln compiler front end\n" ++
  "\n" ++
  "Usage: kiln <command> <file.kn> [options]\n" ++
  "\n" ++
  "Commands:\n" ++
  "  lex      Print the pre-scanned tokens and directives\n" ++
  "  parse    Print an outline of the parsed document\n" ++
  "  check    Parse and run semantic checks\n" ++
  "\n" ++
  "Options:\n" ++
  "  --color=<auto|always|never>         Colored diagnostics (env: " ++
    Settings.colorVariable ++ ")\n" ++
  "  --threshold=<error|warning|note>    Severity that fails the run\n" ++
  "  --no-check                          Skip semantic checks\n"

/-- What a refused run writes to its error output. -/
def refusalText : Refusal → String
  | .environment e => "error: " ++ e.message ++ "\n"
  | .option e => "error: " ++ e.message ++ "\n" ++ usage
  | .wrongCount => usage
  | .unknownCommand reason => "error: " ++ reason ++ "\n" ++ usage

/-- What the arguments ask for; options win over the environment. -/
def plan (color : Option String) (arguments : List String) : Except Refusal Plan :=
  match Settings.initial.withColorVariable color with
  | .error e => .error (.environment e)
  | .ok settings =>
    match settings.applyArguments arguments with
    | (.error e, _) => .error (.option e)
    | (.ok [name, path], settings) =>
      match Command.ofName name with
      | .error reason => .error (.unknownCommand reason)
      | .ok command => .ok ⟨settings, command, path⟩
    | (.ok _, _) => .error .wrongCount

variable [Display]

/-- The diagnostics of a run and its closing row, as written to a terminal or
elsewhere. -/
def logText (settings : Settings) (isTerminal : Bool) (log : Log) : String :=
  Segment.renderAll (settings.color.onOutput isTerminal)
    (log.entries.flatMap Diagnostic.segments ++
      summarySegments (log.count .error) (log.count .warning))

/-- Does what is planned. -/
def execute (p : Plan) (files : Files) (isTerminal : Bool) : RunResult :=
  let (output, s) := p.command.run (.ofSettings p.settings) files p.path
  { code := if output.isSome && !s.log.hasErrors then 0 else 1
    stdout := output.getD ""
    stderr := logText p.settings isTerminal s.log }

/-- A whole run.  The tracing that is turned on by an environment variable of its own is left out,
and so are arguments and values of the variable for colours that are not Unicode. -/
def run (color : Option String) (arguments : List String) (files : Files) (isTerminal : Bool) :
    RunResult :=
  match plan color arguments with
  | .error refusal => ⟨1, "", refusalText refusal⟩
  | .ok p => execute p files isTerminal

end CommandLine
end Kiln
