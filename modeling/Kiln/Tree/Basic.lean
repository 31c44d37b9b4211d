import Kiln.Token.Basic

/-!
# Syntax trees

The tree of a source file.  Every node keeps all the tokens it was read from, so
that the tree can be written out again and every node knows where it stands.
-/

namespace Kiln

/-- Stars followed by the name of a base type. -/
structure TypeName where
  stars : List Token
  base : Token
  deriving DecidableEq

/-- An argument of a function, with the comma behind it if there is one. -/
structure Argument where
  name : Token
  type : TypeName
  comma : Option Token
  deriving DecidableEq

/-- A type among those a function returns. -/
structure ReturnType where
  type : TypeName
  comma : Option Token
  deriving DecidableEq

/-- The types that a function returns, in parentheses. -/
structure ReturnTypes where
  opener : Token
  types : List ReturnType
  closer : Token
  deriving DecidableEq

/-- An operand, or two expressions joined by an operator. -/
inductive Expression where
  | leaf (token : Token)
  | binary (left : Expression) (operator : Token) (right : Expression)
  deriving DecidableEq

/-- An expression of a list.  Whether the last one has a comma is part of the
program's structure. -/
structure ListedValue where
  expression : Expression
  comma : Option Token
  deriving DecidableEq

/-- The expressions that a statement returns, possibly none. -/
structure ValueList where
  values : List ListedValue
  deriving DecidableEq

/-- A statement: the keyword `return` and a list of expressions. -/
structure ReturnStatement where
  keyword : Token
  values : ValueList
  deriving DecidableEq

/-- A function. -/
structure FunctionDecl where
  keyword : Token
  name : Token
  openParen : Token
  arguments : List Argument
  closeParen : Token
  returns : Option ReturnTypes
  openBrace : Token
  statements : List ReturnStatement
  closeBrace : Token
  deriving DecidableEq

/-- The hash and the name that a directive begins with. -/
structure DirectiveHead where
  hash : Token
  name : Token
  deriving DecidableEq

/-- How the path of an inclusion is quoted. -/
inductive PathQuote where
  | angle
  | double
  deriving DecidableEq

namespace PathQuote

/-- The character before the path. -/
def opener : PathQuote → Char
  | .angle => '<'
  | .double => '"'

/-- The character behind the path. -/
def closer : PathQuote → Char
  | .angle => '>'
  | .double => '"'

/-- The quotes that a character opens. -/
def ofOpener? (c : Char) : Option PathQuote :=
  if c = '<' then some .angle else if c = '"' then some .double else none

/-- The name of a kind of quotes. -/
def label : PathQuote → String
  | .angle => "Angle"
  | .double => "Quote"

/-- The kind of the token before the path. -/
def openerKind : PathQuote → Kind
  | .angle => .operator .less
  | .double => .punctuation .quote

/-- The kind of the token behind the path. -/
def closerKind : PathQuote → Kind
  | .angle => .operator .greater
  | .double => .punctuation .quote

end PathQuote

/-- The inclusion of another file. -/
structure Inclusion where
  head : DirectiveHead
  quote : PathQuote
  opener : Token
  path : Token
  closer : Token
  deriving DecidableEq

/-- The lines of an inline block, joined by line feeds. -/
structure BlockBody where
  text : String
  excerpt : Excerpt
  deriving DecidableEq

/-- A block of lines in another language.  The body is absent if the block has no
line; `ending` is the line that closes it. -/
structure InlineBlock where
  head : DirectiveHead
  tag : Token
  body : Option BlockBody
  ending : Excerpt
  deriving DecidableEq

/-- A directive. -/
inductive Directive where
  | inclusion (i : Inclusion)
  | inlineBlock (b : InlineBlock)
  deriving DecidableEq

/-- What stands at the top level of a file. -/
inductive Declaration where
  | function (f : FunctionDecl)
  | directive (d : Directive)
  deriving DecidableEq

/-- The declarations of a file. -/
structure Document where
  declarations : List Declaration
  deriving DecidableEq

/-- The functions of a document, its directives left out. -/
def Document.functions (d : Document) : List FunctionDecl :=
  d.declarations.filterMap fun
    | .function f => some f
    | .directive _ => none

/-- The tokens of an expression in source order, followed by `rest`. -/
def Expression.tokensBefore : Expression → List Token → List Token
  | .leaf token, rest => token :: rest
  | .binary left operator right, rest =>
    left.tokensBefore (operator :: right.tokensBefore rest)

/-- The tokens of an expression in source order. -/
def Expression.tokens (e : Expression) : List Token := e.tokensBefore []

end Kiln
