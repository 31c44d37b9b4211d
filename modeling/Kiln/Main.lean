import Kiln.CommandLine

/-!
# The tool

Reads the environment, the arguments and the file they name, and leaves the rest to
`CommandLine`.
-/

namespace Kiln

/-- Whether a fault has a number; it may be given as a negative one. -/
def hasNumber (fault number : UInt32) : Bool := fault == number || fault == 0 - number

/-- Why the system could not read a file. -/
def readFailureOf : IO.Error → ReadFailure
  | .noFileOrDirectory _ _ _ => .missing
  | .noSuchThing _ _ _ => .missing
  | .inappropriateType _ fault _ => if hasNumber fault 21 then .isDirectory else .notDirectory
  | e@(.invalidArgument _ fault _) =>
    if hasNumber fault 36 then .nameTooLong else .other (toString e)
  | e => .other (toString e)

/-- The octets of a file. -/
def readOctets (path : String) : IO (Except ReadFailure (List UInt8)) := do
  match refusalOfPath? path with
  | some failure => return .error failure
  | none =>
    try
      let octets ← IO.FS.readBinFile path
      return .ok octets.toList
    catch e => return .error (readFailureOf e)

/-- Runs the tool. -/
def runTool (arguments : List String) : IO UInt32 := do
  let color ← IO.getEnv Settings.colorVariable
  let stdout ← IO.getStdout
  let stderr ← IO.getStderr
  match CommandLine.plan color arguments with
  | .error refusal =>
    stderr.putStr (CommandLine.refusalText refusal)
    return 1
  | .ok plan =>
    let content ← readOctets plan.path
    let result := CommandLine.execute plan (fun _ => content) (← stderr.isTty)
    stdout.putStr result.stdout
    stderr.putStr result.stderr
    return result.code.toUInt32

end Kiln

/-- The entry point. -/
def main (arguments : List String) : IO UInt32 := Kiln.runTool arguments
