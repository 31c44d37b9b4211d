import Kiln.Report.Diagnostic
import Kiln.Tree.Basic

/-!
# Faults in directives

Why a directive could not be read, with the code and wording of each fault.
-/

namespace Kiln

/-- Why a directive could not be read. -/
inductive DirectiveFault where
  /-- Something other than blanks precedes the hash. -/
  | misplaced
  /-- No name follows the hash. -/
  | missingName
  /-- The name is not one of the known ones. -/
  | unknownName (name : String) (known : List String)
  /-- A path begins with a character that is no quote. -/
  | wrongPathOpener (found : Char)
  /-- No path follows. -/
  | missingPath
  /-- The line ends within a path. -/
  | unclosedPath (quote : PathQuote)
  /-- A path is closed by the wrong quote. -/
  | wrongPathCloser (found : Char) (quote : PathQuote)
  /-- Nothing stands between the quotes. -/
  | emptyPath
  /-- No tag follows. -/
  | missingTag
  /-- The file ends within a block. -/
  | unclosedBlock (tag : String)
  /-- Something other than a comment follows the directive. -/
  | textAfter (text directive : String)
  deriving DecidableEq

namespace DirectiveFault

/-- The code of a fault. -/
def code : DirectiveFault → Code
  | .misplaced => .misplacedDirective
  | .missingName => .missingDirectiveName
  | .unknownName _ _ => .unknownDirective
  | .wrongPathOpener _ | .missingPath => .missingPath
  | .unclosedPath _ => .unclosedPath
  | .wrongPathCloser _ _ => .mismatchedPathCloser
  | .emptyPath => .emptyPath
  | .missingTag => .missingBlockTag
  | .unclosedBlock _ => .unclosedBlock
  | .textAfter _ _ => .textAfterDirective

/-- The wording of a fault. -/
def message : DirectiveFault → String
  | .misplaced => "`#` must be the first non-whitespace character on its line"
  | .missingName => "expected a directive name after `#`"
  | .unknownName name _ => "unknown directive `#" ++ name ++ "`"
  | .wrongPathOpener found => "unexpected `" ++ found.toString ++ "`, expected `<` or `\"`"
  | .missingPath => "expected `<` or `\"` after `#include`"
  | .unclosedPath quote =>
    "expected `" ++ quote.closer.toString ++ "` before the end of the line"
  | .wrongPathCloser found quote =>
    "mismatched `" ++ found.toString ++ "`, expected `" ++ quote.closer.toString ++ "`"
  | .emptyPath => "empty include path"
  | .missingTag => "expected a block type after `#inline`"
  | .unclosedBlock tag => "expected `#end-inline " ++ tag ++ "` before the end of input"
  | .textAfter text directive => "unexpected `" ++ text ++ "` after `#" ++ directive ++ "`"

/-- The note on a fault, if it has one. -/
def note? : DirectiveFault → Option String
  | .unknownName _ known => some ("known directives: " ++ ", ".intercalate known)
  | _ => none

/-- What is said of the place where a construct that went wrong was opened. -/
def originMessage? : DirectiveFault → Option String
  | .unclosedPath _ => some "include path starts here"
  | .wrongPathCloser _ quote => some ("opened with `" ++ quote.opener.toString ++ "` here")
  | .unclosedBlock _ => some "inline block opened here"
  | _ => none

/-- The report of a fault at a place. -/
def report (fault : DirectiveFault) (place : Excerpt) : Diagnostic :=
  let d := Diagnostic.error fault.code fault.message place
  match fault.note? with
  | some note => d.withNote note
  | none => d

/-- The report of a fault at a place in what was opened at `origin`. -/
def reportFrom (fault : DirectiveFault) (place origin : Excerpt) : Diagnostic :=
  match fault.originMessage? with
  | some message => (fault.report place).withRelated (.note message origin)
  | none => fault.report place

end DirectiveFault
end Kiln
