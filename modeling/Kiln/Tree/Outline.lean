import Kiln.Tree.Basic

/-!
# Outlines

The outline of a document has a row for each declaration and each statement.
Every joined expression stands in parentheses, so that it can be seen what the
operators take.
-/

namespace Kiln

/-- The outline of a type name. -/
def TypeName.outline (t : TypeName) : String :=
  String.ofList (List.replicate t.stars.length '*') ++ t.base.text

/-- The outline of an expression. -/
def Expression.outline : Expression → String
  | .leaf token => token.text
  | .binary left operator right =>
    "(" ++ left.outline ++ " " ++ operator.text ++ " " ++ right.outline ++ ")"

/-- Texts with a comma and a space between them. -/
def listed (texts : List String) : String := ", ".intercalate texts

/-- The row of a statement. -/
def ReturnStatement.outline (s : ReturnStatement) : String :=
  if s.values.values.isEmpty then "  return\n"
  else "  return " ++ listed (s.values.values.map fun v => v.expression.outline) ++ "\n"

/-- The rows of a function. -/
def FunctionDecl.outline (f : FunctionDecl) : String :=
  let arguments := f.arguments.map fun a => a.name.text ++ " " ++ a.type.outline
  let returns :=
    match f.returns with
    | some returns => " (" ++ listed (returns.types.map fun r => r.type.outline) ++ ")"
    | none => ""
  "fun " ++ f.name.text ++ "(" ++ listed arguments ++ ")" ++ returns ++ "\n" ++
    String.join (f.statements.map ReturnStatement.outline)

/-- The row of an inclusion. -/
def Inclusion.outline (i : Inclusion) : String :=
  "include " ++ i.quote.opener.toString ++ i.path.text ++ i.quote.closer.toString ++ "\n"

/-- The row of an inline block, with the number of lines that its body shows. -/
def InlineBlock.outline (b : InlineBlock) : String :=
  let lines := (b.body.map fun body => body.excerpt.spans.size).getD 0
  "inline " ++ b.tag.text ++ " (" ++ toString lines ++ " lines)\n"

/-- The rows of a declaration. -/
def Declaration.outline : Declaration → String
  | .function f => f.outline
  | .directive (.inclusion i) => i.outline
  | .directive (.inlineBlock b) => b.outline

/-- The outline of a document. -/
def Document.outline (d : Document) : String :=
  String.join (d.declarations.map Declaration.outline)

end Kiln
