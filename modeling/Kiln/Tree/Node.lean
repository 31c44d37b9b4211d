import Kiln.Excerpt.Union
import Kiln.Tree.Basic

/-!
# Nodes

What every node of a tree can be asked for: what it is, how a message names it,
where it stands, and a copy of it that stands nowhere.

A node stands where its parts stand: its excerpt is the union of theirs.
-/

namespace Kiln

/-- A node of a tree. -/
class Node (α : Type) where
  /-- The name of the node's kind. -/
  kindName : α → String
  /-- How a message names the node. -/
  describe : α → String := kindName
  /-- Where the node stands. -/
  excerpt : α → Excerpt
  /-- The node without any place. -/
  detach : α → α

namespace Node

variable {α : Type} [Node α]

/-- Where the nodes of a list stand. -/
def excerpts (nodes : List α) : List Excerpt := nodes.map excerpt

/-- Where a node stands that may be absent. -/
def excerptOf? (node : Option α) : List Excerpt := excerpts node.toList

/-- The nodes of a list without any place. -/
def detachAll (nodes : List α) : List α := nodes.map detach

end Node

open Node

instance : Node Token where
  kindName t := t.kind.name
  describe t := t.text
  excerpt t := t.excerpt
  detach := Token.detach

instance : Node TypeName where
  kindName _ := "Type"
  excerpt t := .union (excerpts t.stars ++ [excerpt t.base])
  detach t := ⟨detachAll t.stars, detach t.base⟩

instance : Node Argument where
  kindName _ := "ArgumentDeclaration"
  excerpt a := .union (excerpt a.name :: excerpt a.type :: excerptOf? a.comma)
  detach a := ⟨detach a.name, detach a.type, a.comma.map detach⟩

instance : Node ReturnType where
  kindName _ := "TypeListItem"
  excerpt r := .union (excerpt r.type :: excerptOf? r.comma)
  detach r := ⟨detach r.type, r.comma.map detach⟩

instance : Node ReturnTypes where
  kindName _ := "ReturnTypes"
  excerpt r := .union (excerpt r.opener :: excerpts r.types ++ [excerpt r.closer])
  detach r := ⟨detach r.opener, detachAll r.types, detach r.closer⟩

namespace Expression

/-- An operand is of its token's kind. -/
def kindName : Expression → String
  | .leaf token => Node.kindName token
  | .binary _ _ _ => "InfixExpression"

/-- An operand is named by its text. -/
def describe : Expression → String
  | .leaf token => Node.describe token
  | .binary _ _ _ => "InfixExpression"

/-- Where an expression stands, taken from all its tokens at once. -/
def excerpt : Expression → Excerpt
  | .leaf token => token.excerpt
  | e => .union (excerpts e.tokens)

/-- The expression without any place. -/
def detach : Expression → Expression
  | .leaf token => .leaf token.detach
  | .binary left operator right => .binary left.detach operator.detach right.detach

end Expression

instance : Node Expression where
  kindName := Expression.kindName
  describe := Expression.describe
  excerpt := Expression.excerpt
  detach := Expression.detach

instance : Node ListedValue where
  kindName _ := "ExpressionListItem"
  excerpt v := .union (excerpt v.expression :: excerptOf? v.comma)
  detach v := ⟨detach v.expression, v.comma.map detach⟩

instance : Node ValueList where
  kindName _ := "ExpressionList"
  excerpt l := .union (excerpts l.values)
  detach l := ⟨detachAll l.values⟩

instance : Node ReturnStatement where
  kindName _ := "ReturnStatement"
  excerpt s := .union [excerpt s.keyword, excerpt s.values]
  detach s := ⟨detach s.keyword, detach s.values⟩

instance : Node FunctionDecl where
  kindName _ := "FunctionDeclaration"
  excerpt f :=
    .union ([excerpt f.keyword, excerpt f.name, excerpt f.openParen] ++ excerpts f.arguments ++
      [excerpt f.closeParen] ++ excerptOf? f.returns ++ [excerpt f.openBrace] ++
      excerpts f.statements ++ [excerpt f.closeBrace])
  detach f :=
    { keyword := detach f.keyword
      name := detach f.name
      openParen := detach f.openParen
      arguments := detachAll f.arguments
      closeParen := detach f.closeParen
      returns := f.returns.map detach
      openBrace := detach f.openBrace
      statements := detachAll f.statements
      closeBrace := detach f.closeBrace }

instance : Node DirectiveHead where
  kindName _ := "DirectiveHead"
  excerpt h := .union [excerpt h.hash, excerpt h.name]
  detach h := ⟨detach h.hash, detach h.name⟩

instance : Node Inclusion where
  kindName _ := "IncludeDirective"
  excerpt i := .union [excerpt i.head, excerpt i.opener, excerpt i.path, excerpt i.closer]
  detach i := ⟨detach i.head, i.quote, detach i.opener, detach i.path, detach i.closer⟩

instance : Node BlockBody where
  kindName _ := "InlineBody"
  excerpt b := b.excerpt
  detach b := ⟨b.text, .detached⟩

instance : Node InlineBlock where
  kindName _ := "InlineDirective"
  excerpt b := .union ([excerpt b.head, excerpt b.tag] ++ excerptOf? b.body ++ [b.ending])
  detach b := ⟨detach b.head, detach b.tag, b.body.map detach, .detached⟩

instance : Node Directive where
  kindName
    | .inclusion i => Node.kindName i
    | .inlineBlock b => Node.kindName b
  excerpt
    | .inclusion i => Node.excerpt i
    | .inlineBlock b => Node.excerpt b
  detach
    | .inclusion i => .inclusion (Node.detach i)
    | .inlineBlock b => .inlineBlock (Node.detach b)

instance : Node Declaration where
  kindName
    | .function f => Node.kindName f
    | .directive d => Node.kindName d
  excerpt
    | .function f => Node.excerpt f
    | .directive d => Node.excerpt d
  detach
    | .function f => .function (Node.detach f)
    | .directive d => .directive (Node.detach d)

instance : Node Document where
  kindName _ := "Document"
  excerpt d := .union (excerpts d.declarations)
  detach d := ⟨detachAll d.declarations⟩

end Kiln
