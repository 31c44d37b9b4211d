import Kiln.Report.Diagnostic
import Kiln.Tree.Item

/-!
# Syntax faults

A list of items stops following the grammar at the first item that cannot stand
where it does.  A fault says what could have stood there and which items were
left, the one at fault being the first of them.
-/

namespace Kiln

/-- What could have stood in the place of an item. -/
inductive Wanted where
  | declaration
  | functionName
  | argumentName
  | type
  | statement
  | expression
  | keyword (k : Keyword)
  | punctuation (p : Punctuation)
  deriving DecidableEq

/-- The wording of what is wanted. -/
def Wanted.text : Wanted → String
  | .declaration => "`fun` or a directive"
  | .functionName => "a function name"
  | .argumentName => "an argument name"
  | .type => "a type"
  | .statement => "a statement or `\x7d`"
  | .expression => "an expression"
  | .keyword k => "`" ++ k.text ++ "`"
  | .punctuation p => "`" ++ p.text ++ "`"

/-- Where a list of items stops following the grammar. -/
structure SyntaxFault where
  wanted : Wanted
  rest : List Item
  deriving DecidableEq

namespace SyntaxFault

/-- The code of a fault. -/
def code (fault : SyntaxFault) : Code :=
  match fault.rest with
  | [] => .unexpectedEnd
  | .directive _ :: _ => .nestedDirective
  | .token _ :: _ => if fault.wanted = .expression then .missingExpression else .unexpectedToken

/-- The wording of what was found. -/
def foundText (fault : SyntaxFault) : String :=
  match fault.rest with
  | [] => "end of input"
  | .directive _ :: _ => "a directive"
  | .token t :: _ => "`" ++ t.text ++ "`"

/-- The wording of a fault. -/
def message (fault : SyntaxFault) : String :=
  "expected " ++ fault.wanted.text ++ ", got " ++ fault.foundText

/-- Where a fault is, the end of the items standing at `ending`. -/
def place (fault : SyntaxFault) (ending : Excerpt) : Excerpt :=
  match fault.rest with
  | [] => ending
  | item :: _ => item.excerpt

/-- The report of a fault. -/
def report (fault : SyntaxFault) (ending : Excerpt) : Diagnostic :=
  let d := Diagnostic.error fault.code fault.message (fault.place ending)
  match fault.rest with
  | .directive _ :: _ => d.withNote "directives are only allowed at the top level"
  | _ => d

end SyntaxFault
end Kiln
