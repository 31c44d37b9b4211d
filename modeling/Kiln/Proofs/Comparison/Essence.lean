import Kiln.Tree.Divergence

/-!
# What a comparison decides

The *essence* of a node is what a comparison looks at: the node without any place, and
with the tokens that are not compared replaced by those that stand there in every
program.  Two nodes diverge nowhere exactly if their essence is the same.

Each kind of node says for itself which of its tokens are not compared: the keyword,
parentheses and braces of a function, the parentheses of returned types, the keyword of a
statement, the hash of a directive, the quotes around a path, which are known from their
kind, and the line that closes a block.
-/

namespace Kiln

/-- A kind of node with an essence: a comparison decides whether two nodes have the
same, and places are no part of it. -/
class Essential (α : Type) [Comparable α] where
  /-- What a comparison looks at. -/
  essence : α → α
  /-- Nodes diverge nowhere exactly if their essence is the same. -/
  divergence?_eq_none_iff : ∀ (anchor : Anchor) (a b : α),
    divergence? anchor a b = none ↔ essence a = essence b
  /-- A node has the essence of its detached copy. -/
  essence_detach : ∀ a : α, essence (Node.detach a) = essence a

export Essential (essence)

namespace Essential

variable {α : Type} [Comparable α] [Essential α]

attribute [simp] divergence?_eq_none_iff essence_detach

/-- Comparing succeeds exactly if the essence is the same. -/
theorem expect_eq_ok_iff (anchor : Anchor) (a b : α) :
    expect anchor a b = .ok () ↔ essence a = essence b := by
  rw [← divergence?_eq_none_iff anchor, expect]
  cases divergence? anchor a b <;> simp [Divergence.outcome]

/-- A node is as expected if it is the same up to places. -/
theorem expect_of_detach_eq {a b : α} (h : Node.detach a = Node.detach b) (anchor : Anchor) :
    expect anchor a b = .ok () := by
  rw [expect_eq_ok_iff, ← essence_detach a, h, essence_detach]

/-! ## Lists and children -/

@[simp] theorem childDivergence?_eq_none_iff (anchor : Anchor) (a b : Option α) :
    childDivergence? anchor a b = none ↔ a.map essence = b.map essence := by
  cases a <;> cases b <;> simp [childDivergence?]

theorem elementDivergence?_eq_none_iff (anchor : Anchor) {as bs : List α}
    (h : as.length = bs.length) :
    elementDivergence? anchor as bs = none ↔ as.map essence = bs.map essence := by
  induction as generalizing bs with
  | nil =>
      rw [List.length_nil, eq_comm, List.length_eq_zero_iff] at h
      simp [h, elementDivergence?]
  | cons a as ih =>
      obtain ⟨b, bs, rfl⟩ := List.exists_cons_of_length_eq_add_one h.symm
      have htail := ih (Nat.succ.inj h)
      simp [elementDivergence?, htail]

/-- Lists diverge nowhere exactly if they have the same essences one by one, and
therefore the same length. -/
@[simp] theorem listDivergence?_eq_none_iff (anchor : Anchor) (noun : String)
    (as bs : List α) :
    listDivergence? anchor noun as bs = none ↔ as.map essence = bs.map essence := by
  by_cases hlength : as.length = bs.length
  · rw [listDivergence?, if_pos hlength, elementDivergence?_eq_none_iff anchor hlength]
  · have hne : as.map essence ≠ bs.map essence := by
      intro h
      exact hlength (by simpa using congrArg List.length h)
    simp [listDivergence?, hlength, hne]

@[simp] theorem map_essence_detachAll (as : List α) :
    (Node.detachAll as).map essence = as.map essence := by
  simp [Node.detachAll]

@[simp] theorem map_essence_detach (a : Option α) :
    (a.map Node.detach).map essence = a.map essence := by
  simp [Function.comp_def]

end Essential

open Essential

/-! ## Tokens and expressions -/

theorem Kind.sameCategory_self (kind : Kind) : kind.sameCategory kind = true := by
  cases kind <;> rfl

theorem Token.divergence?_eq_none_iff (t u : Token) :
    t.divergence? u = none ↔ t.detach = u.detach := by
  by_cases hkind : t.kind = u.kind
  · simp [Token.divergence?, Token.detach, Token.ofText, hkind, Kind.sameCategory_self]
  · have hdetach : t.detach ≠ u.detach := fun h => hkind (Token.mk.inj h).1
    simp only [hdetach, iff_false, Token.divergence?]
    split <;> simp [hkind]

instance : Essential Token where
  essence := Token.detach
  divergence?_eq_none_iff _ := Token.divergence?_eq_none_iff
  essence_detach _ := rfl

theorem Expression.divergence?_eq_none_iff (a b : Expression) :
    a.divergence? b = none ↔ a.detach = b.detach := by
  induction a generalizing b with
  | leaf t =>
      cases b with
      | leaf u => simpa [Expression.divergence?, Expression.detach] using
          t.divergence?_eq_none_iff u
      | binary left operator right => simp [Expression.divergence?, Expression.detach]
  | binary left operator right ihl ihr =>
      cases b with
      | leaf u => simp [Expression.divergence?, Expression.detach]
      | binary left' operator' right' =>
          simp [Expression.divergence?, Expression.detach, ihl, ihr,
            Token.divergence?_eq_none_iff]

theorem Expression.detach_detach (e : Expression) : e.detach.detach = e.detach := by
  induction e with
  | leaf t => rfl
  | binary left operator right ihl ihr =>
      rw [Expression.detach, Expression.detach, ihl, ihr]
      rfl

instance : Essential Expression where
  essence := Expression.detach
  divergence?_eq_none_iff _ := Expression.divergence?_eq_none_iff
  essence_detach := Expression.detach_detach

/-- The comparison of two tokens, which does not depend on an anchor. -/
@[simp] theorem divergence?_token (t u : Token) :
    t.divergence? u = none ↔ essence t = essence u :=
  t.divergence?_eq_none_iff u

/-- The comparison of two expressions, which does not depend on an anchor. -/
@[simp] theorem divergence?_expression (a b : Expression) :
    a.divergence? b = none ↔ essence a = essence b :=
  a.divergence?_eq_none_iff b

/-! ## Types and lists -/

instance : Essential TypeName where
  essence t := ⟨t.stars.map essence, essence t.base⟩
  divergence?_eq_none_iff anchor a b := by
    show (listDivergence? (Node.anchor a) "pointer" a.stars b.stars <|>
      a.base.divergence? b.base) = none ↔ _
    simp
  essence_detach t :=
    (TypeName.mk.injEq ..).mpr ⟨map_essence_detachAll t.stars, essence_detach t.base⟩

instance : Essential Argument where
  essence a := ⟨essence a.name, essence a.type, a.comma.map essence⟩
  divergence?_eq_none_iff anchor a b := by
    show (a.name.divergence? b.name <|> divergence? (Node.anchor a) a.type b.type <|>
      childDivergence? (Node.anchor a) a.comma b.comma) = none ↔ _
    simp
  essence_detach a :=
    (Argument.mk.injEq ..).mpr
      ⟨essence_detach a.name, essence_detach a.type, map_essence_detach a.comma⟩

instance : Essential ReturnType where
  essence r := ⟨essence r.type, r.comma.map essence⟩
  divergence?_eq_none_iff anchor a b := by
    show (divergence? (Node.anchor a) a.type b.type <|>
      childDivergence? (Node.anchor a) a.comma b.comma) = none ↔ _
    simp
  essence_detach r :=
    (ReturnType.mk.injEq ..).mpr ⟨essence_detach r.type, map_essence_detach r.comma⟩

instance : Essential ReturnTypes where
  essence r :=
    ⟨.ofPunctuation .leftParen, r.types.map essence, .ofPunctuation .rightParen⟩
  divergence?_eq_none_iff anchor a b := by
    show listDivergence? (Node.anchor a) "return type" a.types b.types = none ↔ _
    simp
  essence_detach r := (ReturnTypes.mk.injEq ..).mpr ⟨rfl, map_essence_detachAll r.types, rfl⟩

instance : Essential ListedValue where
  essence v := ⟨essence v.expression, v.comma.map essence⟩
  divergence?_eq_none_iff anchor a b := by
    show (a.expression.divergence? b.expression <|>
      childDivergence? (Node.anchor a) a.comma b.comma) = none ↔ _
    simp
  essence_detach v :=
    (ListedValue.mk.injEq ..).mpr ⟨essence_detach v.expression, map_essence_detach v.comma⟩

instance : Essential ValueList where
  essence l := ⟨l.values.map essence⟩
  divergence?_eq_none_iff anchor a b := by
    show listDivergence? anchor "expression" a.values b.values = none ↔ _
    simp
  essence_detach l := congrArg ValueList.mk (map_essence_detachAll l.values)

/-! ## Functions -/

instance : Essential ReturnStatement where
  essence s := ⟨.ofKeyword .yield, essence s.values⟩
  divergence?_eq_none_iff anchor a b := by
    show divergence? (Node.anchor a) a.values b.values = none ↔ _
    simp
  essence_detach s := (ReturnStatement.mk.injEq ..).mpr ⟨rfl, essence_detach s.values⟩

instance : Essential FunctionDecl where
  essence f :=
    { keyword := .ofKeyword .function
      name := essence f.name
      openParen := .ofPunctuation .leftParen
      arguments := f.arguments.map essence
      closeParen := .ofPunctuation .rightParen
      returns := f.returns.map essence
      openBrace := .ofPunctuation .leftBrace
      statements := f.statements.map essence
      closeBrace := .ofPunctuation .rightBrace }
  divergence?_eq_none_iff anchor a b := by
    show (a.name.divergence? b.name <|>
      listDivergence? (Node.anchor a) "argument" a.arguments b.arguments <|>
      childDivergence? (Node.anchor a) a.returns b.returns <|>
      listDivergence? (Node.anchor a) "statement" a.statements b.statements) = none ↔ _
    simp
  essence_detach f :=
    (FunctionDecl.mk.injEq ..).mpr
      ⟨rfl, essence_detach f.name, rfl, map_essence_detachAll f.arguments, rfl,
        map_essence_detach f.returns, rfl, map_essence_detachAll f.statements, rfl⟩

/-! ## Directives -/

instance : Essential DirectiveHead where
  essence h := ⟨.ofPunctuation .hash, essence h.name⟩
  divergence?_eq_none_iff anchor a b := by
    show a.name.divergence? b.name = none ↔ _
    simp
  essence_detach h := (DirectiveHead.mk.injEq ..).mpr ⟨rfl, essence_detach h.name⟩

/-- The token before a path in quotes of a kind. -/
def PathQuote.openerToken (quote : PathQuote) : Token :=
  .ofText quote.openerKind quote.opener.toString

/-- The token behind a path in quotes of a kind. -/
def PathQuote.closerToken (quote : PathQuote) : Token :=
  .ofText quote.closerKind quote.closer.toString

instance : Essential Inclusion where
  essence i :=
    ⟨essence i.head, i.quote, i.quote.openerToken, essence i.path, i.quote.closerToken⟩
  divergence?_eq_none_iff anchor a b := by
    show (divergence? anchor a.head b.head <|>
      (if a.quote = b.quote then none
        else
          some (.value b.quote.opener.toString a.quote.opener.toString a.opener.excerpt)) <|>
      a.path.divergence? b.path) = none ↔ _
    by_cases hquote : a.quote = b.quote <;> simp [hquote]
  essence_detach i :=
    (Inclusion.mk.injEq ..).mpr ⟨essence_detach i.head, rfl, rfl, essence_detach i.path, rfl⟩

instance : Essential BlockBody where
  essence := Node.detach
  divergence?_eq_none_iff anchor a b := by
    show (if a.text = b.text then none else some (Divergence.value b.text a.text a.excerpt)) =
      none ↔ BlockBody.mk a.text .detached = BlockBody.mk b.text .detached
    simp
  essence_detach _ := rfl

instance : Essential InlineBlock where
  essence b := ⟨essence b.head, essence b.tag, b.body.map essence, .detached⟩
  divergence?_eq_none_iff anchor a b := by
    show (divergence? anchor a.head b.head <|> a.tag.divergence? b.tag <|>
      childDivergence? (Node.anchor a) a.body b.body) = none ↔ _
    simp
  essence_detach b :=
    (InlineBlock.mk.injEq ..).mpr
      ⟨essence_detach b.head, essence_detach b.tag, map_essence_detach b.body, rfl⟩

/-! ## Declarations and documents -/

instance : Essential Directive where
  essence
    | .inclusion i => .inclusion (essence i)
    | .inlineBlock b => .inlineBlock (essence b)
  divergence?_eq_none_iff anchor
    | .inclusion a, .inclusion b => by
        show divergence? anchor a b = none ↔ _
        simp
    | .inlineBlock a, .inlineBlock b => by
        show divergence? anchor a b = none ↔ _
        simp
    | .inclusion a, .inlineBlock b => by simp [divergence?]
    | .inlineBlock a, .inclusion b => by simp [divergence?]
  essence_detach
    | .inclusion i => congrArg Directive.inclusion (essence_detach i)
    | .inlineBlock b => congrArg Directive.inlineBlock (essence_detach b)

instance : Essential Declaration where
  essence
    | .function f => .function (essence f)
    | .directive d => .directive (essence d)
  divergence?_eq_none_iff anchor
    | .function a, .function b => by
        show divergence? anchor a b = none ↔ _
        simp
    | .directive a, .directive b => by
        show divergence? anchor a b = none ↔ _
        simp
    | .function a, .directive b => by simp [divergence?]
    | .directive a, .function b => by simp [divergence?]
  essence_detach
    | .function f => congrArg Declaration.function (essence_detach f)
    | .directive d => congrArg Declaration.directive (essence_detach d)

instance : Essential Document where
  essence d := ⟨d.declarations.map essence⟩
  divergence?_eq_none_iff anchor a b := by
    show listDivergence? anchor "declaration" a.declarations b.declarations = none ↔ _
    simp
  essence_detach d := congrArg Document.mk (map_essence_detachAll d.declarations)

/-- A document is as expected if it is the same up to places. -/
theorem Document.expect_eq_ok {d d' : Document} (h : Node.detach d = Node.detach d') :
    d.expect d' = .ok () :=
  expect_of_detach_eq h _

end Kiln
