import Kiln.Tree.Node

/-!
# Items

An item is what the grammar is written over: a token or a whole directive.  A
tree is written out again by `Document.items`, which lists its tokens and
directives in source order.
-/

namespace Kiln

/-- A token or a directive. -/
inductive Item where
  | token (t : Token)
  | directive (d : Directive)
  deriving DecidableEq

/-- Where an item stands. -/
def Item.excerpt : Item → Excerpt
  | .token t => t.excerpt
  | .directive d => Node.excerpt d

/-- The tokens of a type name. -/
def TypeName.tokens (t : TypeName) : List Token := t.stars ++ [t.base]

/-- The tokens of an argument. -/
def Argument.tokens (a : Argument) : List Token :=
  a.name :: a.type.tokens ++ a.comma.toList

/-- The tokens of a returned type. -/
def ReturnType.tokens (r : ReturnType) : List Token :=
  r.type.tokens ++ r.comma.toList

/-- The tokens of a list of returned types. -/
def ReturnTypes.tokens (r : ReturnTypes) : List Token :=
  r.opener :: r.types.flatMap ReturnType.tokens ++ [r.closer]

/-- The tokens of a listed expression. -/
def ListedValue.tokens (v : ListedValue) : List Token :=
  v.expression.tokens ++ v.comma.toList

/-- The tokens of a list of expressions. -/
def ValueList.tokens (l : ValueList) : List Token :=
  l.values.flatMap ListedValue.tokens

/-- The tokens of a statement. -/
def ReturnStatement.tokens (s : ReturnStatement) : List Token :=
  s.keyword :: s.values.tokens

/-- The tokens of a function. -/
def FunctionDecl.tokens (f : FunctionDecl) : List Token :=
  [f.keyword, f.name, f.openParen] ++ f.arguments.flatMap Argument.tokens ++ [f.closeParen] ++
    f.returns.toList.flatMap ReturnTypes.tokens ++ [f.openBrace] ++
    f.statements.flatMap ReturnStatement.tokens ++ [f.closeBrace]

/-- The items of a declaration. -/
def Declaration.items : Declaration → List Item
  | .function f => f.tokens.map .token
  | .directive d => [.directive d]

/-- The items of a document. -/
def Document.items (d : Document) : List Item :=
  d.declarations.flatMap Declaration.items

end Kiln
