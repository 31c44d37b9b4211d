import Kiln.Report.Diagnostic
import Kiln.Tree.Node

/-!
# Checks of the meaning

What has to hold of a document beyond its grammar.  Two checks are built in: no function has
two arguments of one name, and every statement returns as many values as its function says;
others can be put in their place.  A list of checks is run in order up to the first violation.
-/

namespace Kiln

/-- What a check finds wrong. -/
inductive Violation where
  /-- An argument has the name of an earlier one. -/
  | repeatedArgument (function : String) (first again : Token)
  /-- A statement returns another number of values than its function says. -/
  | returnCount (function : String) (returns : Option ReturnTypes) (statement : ReturnStatement)
  /-- Something that a check with reports of its own finds. -/
  | reported (d : Diagnostic)
  deriving DecidableEq

/-- A check: the first violation in a document, if there is one. -/
structure Check where
  violation? : Document → Option Violation

/-- The number of values that a function says it returns: none without a list of
types. -/
def declaredCount (returns : Option ReturnTypes) : Nat :=
  (returns.map fun r => r.types.length).getD 0

namespace Violation

/-- The report of a violation. -/
def report : Violation → Diagnostic
  | .repeatedArgument function first again =>
    (Diagnostic.error .duplicateArgument
      ("duplicate argument `" ++ again.text ++ "` in `" ++ function ++ "`")
      again.excerpt).withRelated (.note "first declared here" first.excerpt)
  | .returnCount function returns statement =>
    let declared := declaredCount returns
    let d := Diagnostic.error .wrongReturnCount
      ("`" ++ function ++ "` returns " ++ toString declared ++ " value" ++
        (if declared = 1 then "" else "s") ++ ", but this returns " ++
        toString statement.values.values.length)
      (Node.excerpt statement)
    match returns with
    | some types => d.withRelated (.note "return types declared here" (Node.excerpt types))
    | none => d
  | .reported d => d

end Violation

/-- The first argument whose name is among those seen or precedes it in the list,
after the argument that had the name first. -/
def repeatedName? (seen : List Token) : List Argument → Option (Token × Token)
  | [] => none
  | a :: as =>
    match seen.find? fun t => t.text == a.name.text with
    | some first => some (first, a.name)
    | none => repeatedName? (a.name :: seen) as

namespace FunctionDecl

/-- The first argument that has the name of an earlier one. -/
def repeatedArgument? (f : FunctionDecl) : Option Violation :=
  (repeatedName? [] f.arguments).map fun (first, again) =>
    .repeatedArgument f.name.text first again

/-- The first statement that returns another number of values than the function
says. -/
def wrongReturn? (f : FunctionDecl) : Option Violation :=
  (f.statements.find? fun s => s.values.values.length != declaredCount f.returns).map
    fun s => .returnCount f.name.text f.returns s

end FunctionDecl

namespace Check

/-- The arguments of a function have different names. -/
def argumentNames : Check := ⟨fun d => d.functions.findSome? FunctionDecl.repeatedArgument?⟩

/-- A statement returns as many values as its function says. -/
def returnCounts : Check := ⟨fun d => d.functions.findSome? FunctionDecl.wrongReturn?⟩

/-- The checks of a run that is not told otherwise. -/
def defaults : List Check := [argumentNames, returnCounts]

/-- The violation of the first check that has one. -/
def firstViolation? (checks : List Check) (d : Document) : Option Violation :=
  checks.findSome? fun check => check.violation? d

end Check
end Kiln
