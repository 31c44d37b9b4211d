import Kiln.Report.Diagnostic
import Kiln.Tree.Node

/-!
# Divergences of trees

A tree is compared with an expected one, and the first divergence in source order
is reported as an error.  Only the actual tree has to know where it stands.  Tokens that every
program must have where they are, such as parentheses and the keyword of a
function, are not compared.

An *anchor* is where a missing child, or a list that should not be empty, is
reported: the place of the node it belongs to.  It is found only when it is needed.
-/

namespace Kiln

/-- How an actual tree differs from the expected one, and where. -/
inductive Divergence where
  /-- A node is of another kind. -/
  | kind (expected actual : String) (place : Excerpt)
  /-- A node is missing. -/
  | missing (expected : String) (place : Excerpt)
  /-- A node should not be there. -/
  | unexpected (actual : String) (place : Excerpt)
  /-- A list has another length. -/
  | count (noun : String) (expected actual : Nat) (place : Excerpt)
  /-- A token or text has another value. -/
  | value (expected actual : String) (place : Excerpt)
  deriving DecidableEq

namespace Divergence

/-- The code of a divergence. -/
def code : Divergence → Code
  | .kind _ _ _ => .differentKind
  | .missing _ _ => .missingChild
  | .unexpected _ _ => .unexpectedChild
  | .count _ _ _ _ => .differentCount
  | .value _ _ _ => .differentValue

/-- The wording of a divergence. -/
def message : Divergence → String
  | .kind expected actual _ => "expected a `" ++ expected ++ "`, got a `" ++ actual ++ "`"
  | .missing expected _ => "expected `" ++ expected ++ "`, got nothing"
  | .unexpected actual _ => "unexpected `" ++ actual ++ "` found"
  | .count noun expected actual _ =>
    "expected " ++ toString expected ++ " " ++ noun ++ (if expected = 1 then "" else "s") ++
      ", got " ++ toString actual
  | .value expected actual _ => "expected `" ++ expected ++ "`, got `" ++ actual ++ "`"

/-- Where a divergence is. -/
def place : Divergence → Excerpt
  | .kind _ _ place => place
  | .missing _ place => place
  | .unexpected _ place => place
  | .count _ _ _ place => place
  | .value _ _ place => place

/-- The report of a divergence. -/
def report (d : Divergence) : Diagnostic := .error d.code d.message d.place

/-- Two nodes are of different kinds. -/
def ofKinds {α : Type} [Node α] (actual expected : α) : Divergence :=
  .kind (Node.kindName expected) (Node.kindName actual) (Node.excerpt actual)

end Divergence

/-- Where to report what a node lacks, found on demand. -/
abbrev Anchor := Unit → Excerpt

/-- The place of a node as an anchor. -/
def Node.anchor {α : Type} [Node α] (node : α) : Anchor := fun _ => Node.excerpt node

/-- A kind of node that can be compared with an expected one. -/
class Comparable (α : Type) extends Node α where
  /-- The first divergence of a node from the expected one. -/
  divergence? : Anchor → α → α → Option Divergence

export Comparable (divergence?)

/-- The first divergence of a child that may be absent. -/
def childDivergence? {α : Type} [Comparable α] (anchor : Anchor) :
    Option α → Option α → Option Divergence
  | some actual, some expected => divergence? anchor actual expected
  | none, none => none
  | none, some expected => some (.missing (Node.describe expected) (anchor ()))
  | some actual, none => some (.unexpected (Node.describe actual) (Node.excerpt actual))

/-- The first divergence of the elements of two lists of one length. -/
def elementDivergence? {α : Type} [Comparable α] (anchor : Anchor) :
    List α → List α → Option Divergence
  | actual :: actuals, expected :: expecteds =>
    divergence? anchor actual expected <|> elementDivergence? anchor actuals expecteds
  | _, _ => none

/-- The first divergence of a list.  Lists of different lengths diverge as a whole,
where the actual elements stand. -/
def listDivergence? {α : Type} [Comparable α] (anchor : Anchor) (noun : String)
    (actuals expecteds : List α) : Option Divergence :=
  if actuals.length = expecteds.length then elementDivergence? anchor actuals expecteds
  else
    let place := if actuals.isEmpty then anchor () else .union (Node.excerpts actuals)
    some (.count noun expecteds.length actuals.length place)

/-- The divergence of a token, by category first and then by kind and text. -/
def Token.divergence? (actual expected : Token) : Option Divergence :=
  if !actual.kind.sameCategory expected.kind then some (.ofKinds actual expected)
  else if actual.kind = expected.kind ∧ actual.text = expected.text then none
  else some (.value expected.text actual.text actual.excerpt)

instance : Comparable Token where
  divergence? _ := Token.divergence?

instance : Comparable TypeName where
  divergence? _ actual expected :=
    listDivergence? (Node.anchor actual) "pointer" actual.stars expected.stars <|>
      actual.base.divergence? expected.base

instance : Comparable Argument where
  divergence? _ actual expected :=
    actual.name.divergence? expected.name <|>
      divergence? (Node.anchor actual) actual.type expected.type <|>
      childDivergence? (Node.anchor actual) actual.comma expected.comma

instance : Comparable ReturnType where
  divergence? _ actual expected :=
    divergence? (Node.anchor actual) actual.type expected.type <|>
      childDivergence? (Node.anchor actual) actual.comma expected.comma

instance : Comparable ReturnTypes where
  divergence? _ actual expected :=
    listDivergence? (Node.anchor actual) "return type" actual.types expected.types

/-- The first divergence of an expression: left operand, operator, right operand. -/
def Expression.divergence? : Expression → Expression → Option Divergence
  | .leaf actual, .leaf expected => actual.divergence? expected
  | .binary left operator right, .binary left' operator' right' =>
    left.divergence? left' <|> operator.divergence? operator' <|> right.divergence? right'
  | actual, expected => some (.ofKinds actual expected)

instance : Comparable Expression where
  divergence? _ := Expression.divergence?

instance : Comparable ListedValue where
  divergence? _ actual expected :=
    actual.expression.divergence? expected.expression <|>
      childDivergence? (Node.anchor actual) actual.comma expected.comma

instance : Comparable ValueList where
  divergence? anchor actual expected :=
    listDivergence? anchor "expression" actual.values expected.values

instance : Comparable ReturnStatement where
  divergence? _ actual expected :=
    divergence? (Node.anchor actual) actual.values expected.values

instance : Comparable FunctionDecl where
  divergence? _ actual expected :=
    let anchor := Node.anchor actual
    actual.name.divergence? expected.name <|>
      listDivergence? anchor "argument" actual.arguments expected.arguments <|>
      childDivergence? anchor actual.returns expected.returns <|>
      listDivergence? anchor "statement" actual.statements expected.statements

instance : Comparable DirectiveHead where
  divergence? _ actual expected := actual.name.divergence? expected.name

instance : Comparable Inclusion where
  divergence? _ actual expected :=
    actual.head.name.divergence? expected.head.name <|>
      (if actual.quote = expected.quote then none
        else
          some (.value expected.quote.opener.toString actual.quote.opener.toString
            actual.opener.excerpt)) <|>
      actual.path.divergence? expected.path

instance : Comparable BlockBody where
  divergence? _ actual expected :=
    if actual.text = expected.text then none
    else some (.value expected.text actual.text actual.excerpt)

instance : Comparable InlineBlock where
  divergence? _ actual expected :=
    actual.head.name.divergence? expected.head.name <|>
      actual.tag.divergence? expected.tag <|>
      childDivergence? (Node.anchor actual) actual.body expected.body

instance : Comparable Directive where
  divergence? anchor
    | .inclusion actual, .inclusion expected => divergence? anchor actual expected
    | .inlineBlock actual, .inlineBlock expected => divergence? anchor actual expected
    | actual, expected => some (.ofKinds actual expected)

instance : Comparable Declaration where
  divergence? anchor
    | .function actual, .function expected => divergence? anchor actual expected
    | .directive actual, .directive expected => divergence? anchor actual expected
    | actual, expected => some (.ofKinds actual expected)

instance : Comparable Document where
  divergence? anchor actual expected :=
    listDivergence? anchor "declaration" actual.declarations expected.declarations

/-- What is made of a comparison: the report of the divergence, if there is one. -/
def Divergence.outcome : Option Divergence → Except Diagnostic Unit
  | none => .ok ()
  | some d => .error d.report

/-- Compares a node with the expected one; whatever it lacks as a whole is reported
at the anchor. -/
def expect {α : Type} [Comparable α] (anchor : Anchor) (actual expected : α) :
    Except Diagnostic Unit :=
  Divergence.outcome (divergence? anchor actual expected)

/-- The first divergence of a document; whatever it lacks as a whole is found where
its declarations stand. -/
def Document.compare (actual expected : Document) : Option Divergence :=
  divergence? (Node.anchor actual) actual expected

/-- Compares a document with the expected one. -/
def Document.expect (actual expected : Document) : Except Diagnostic Unit :=
  Divergence.outcome (actual.compare expected)

end Kiln
