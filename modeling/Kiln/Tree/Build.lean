import Kiln.Tree.Basic

/-!
# Building trees

Constructors of trees that come from no file, to compare other trees with.  Commas
are filled in: one behind every element of a list but the last, and one behind the
last expression of a list where that is asked for.
-/

namespace Kiln
namespace Build

/-- An identifier. -/
def identifier (name : String) : Token := .ofText .identifier name

/-- The base that the spelling of an integer literal says. -/
def baseOf (digits : List Char) : Base :=
  match digits with
  | '0' :: 'x' :: _ => .hexadecimal
  | '0' :: 'X' :: _ => .hexadecimal
  | '0' :: _ :: _ => .octal
  | _ => .decimal

/-- An integer literal, its base being that of its spelling. -/
def integer (text : String) : Token := .ofText (.integer (baseOf text.toList)) text

/-- A floating-point literal. -/
def float (text : String) : Token := .ofText .float text

/-- A string literal with what stands between its quotes. -/
def string (contents : String) : Token := .ofText .string ("\"" ++ contents ++ "\"")

/-- A variable as an expression. -/
def operand (name : String) : Expression := .leaf (identifier name)

/-- An integer literal as an expression. -/
def number (text : String) : Expression := .leaf (integer text)

/-- Two expressions joined by an operator. -/
def binary (left : Expression) (operator : Operator) (right : Expression) : Expression :=
  .binary left (.ofOperator operator) right

/-- A type name behind a number of stars. -/
def pointer (depth : Nat) (base : String) : TypeName :=
  ⟨List.replicate depth (.ofOperator .times), identifier base⟩

/-- A comma. -/
def comma : Token := .ofPunctuation .comma

/-- Elements with the commas between them, and one behind the last if there is a
trailing one. -/
def withCommas {α : Type} (trailing : Bool) : List α → List (α × Option Token)
  | [] => []
  | [a] => [(a, if trailing then some comma else none)]
  | a :: as => (a, some comma) :: withCommas trailing as

/-- A list of expressions. -/
def values (expressions : List Expression) (trailing : Bool) : ValueList :=
  ⟨(withCommas trailing expressions).map fun (expression, comma) => ⟨expression, comma⟩⟩

/-- A statement that returns expressions. -/
def returning (expressions : List Expression) (trailing : Bool) : ReturnStatement :=
  ⟨.ofKeyword .yield, values expressions trailing⟩

/-- The types a function returns. -/
def returnTypes (types : List TypeName) : ReturnTypes :=
  ⟨.ofPunctuation .leftParen, (withCommas false types).map fun (type, comma) => ⟨type, comma⟩,
    .ofPunctuation .rightParen⟩

/-- A function. -/
def function (name : String) (arguments : List (String × TypeName))
    (returns : Option (List TypeName)) (statements : List ReturnStatement) : Declaration :=
  .function
    { keyword := .ofKeyword .function
      name := identifier name
      openParen := .ofPunctuation .leftParen
      arguments :=
        (withCommas false arguments).map fun ((name, type), comma) =>
          ⟨identifier name, type, comma⟩
      closeParen := .ofPunctuation .rightParen
      returns := returns.map returnTypes
      openBrace := .ofPunctuation .leftBrace
      statements
      closeBrace := .ofPunctuation .rightBrace }

/-- The beginning of a directive. -/
def head (name : String) : DirectiveHead := ⟨.ofPunctuation .hash, identifier name⟩

/-- An inclusion. -/
def inclusion (quote : PathQuote) (path : String) : Declaration :=
  .directive <| .inclusion
    { head := head "include"
      quote
      opener := .ofText quote.openerKind quote.opener.toString
      path := .ofText .string path
      closer := .ofText quote.closerKind quote.closer.toString }

/-- An inline block; without a body it has no line. -/
def inlineBlock (tag : String) (body : Option String) : Declaration :=
  .directive <| .inlineBlock
    { head := head "inline"
      tag := identifier tag
      body := body.map fun text => ⟨text, .detached⟩
      ending := .detached }

end Build
end Kiln
