import Kiln.Grammar.Expression
import Kiln.Proofs.Relocation.Unions

/-!
# Trees on other lines

A tree is shown on other lines if all its tokens are.  Every node then stands on these
lines instead of its own, and apart from where it stands it is the same node.
-/

namespace Kiln

open Node

/-- A kind of node that can be shown on other lines. -/
class Shown (α : Type) [Node α] where
  /-- The node on other lines. -/
  mapLines : (Line → Line) → α → α
  /-- Without any place the node is the same. -/
  detach_mapLines : ∀ (f : Line → Line) (a : α), detach (mapLines f a) = detach a
  /-- The node stands on the lines on which it is shown. -/
  excerpt_mapLines : ∀ {f : Line → Line} {offset : Nat}, Lowers f offset → ∀ a : α,
    excerpt (mapLines f a) = (excerpt a).mapLines f

export Shown (mapLines)

namespace Shown

variable {α : Type} [Node α] [Shown α] {f : Line → Line} {offset : Nat}

attribute [simp] detach_mapLines

@[simp] theorem detachAll_map (f : Line → Line) (as : List α) :
    detachAll (as.map (mapLines f)) = detachAll as := by
  simp [detachAll]

@[simp] theorem map_detach_map (f : Line → Line) (a : Option α) :
    (a.map (mapLines f)).map detach = a.map detach := by
  simp [Function.comp_def]

theorem excerpts_map (h : Lowers f offset) (as : List α) :
    excerpts (as.map (mapLines f)) = (excerpts as).map (Excerpt.mapLines f) := by
  simp [excerpts, excerpt_mapLines h]

/-- A node stands on the lines on which its parts stand. -/
theorem union_of_map (h : Lowers f offset) {es es' : List Excerpt}
    (hparts : es' = es.map (Excerpt.mapLines f)) :
    Excerpt.union es' = (Excerpt.union es).mapLines f := by
  rw [hparts, Excerpt.union_mapLines h]

theorem excerptOf?_map (h : Lowers f offset) (a : Option α) :
    excerptOf? (a.map (mapLines f)) = (excerptOf? a).map (Excerpt.mapLines f) := by
  cases a <;> simp [excerptOf?, excerpts, excerpt_mapLines h]

end Shown

open Shown

instance : Shown Token where
  mapLines := Token.mapLines
  detach_mapLines _ _ := rfl
  excerpt_mapLines _ _ := rfl

instance : Shown TypeName where
  mapLines f t := ⟨t.stars.map (mapLines f), mapLines f t.base⟩
  detach_mapLines f t :=
    (TypeName.mk.injEq ..).mpr ⟨detachAll_map f t.stars, detach_mapLines f t.base⟩
  excerpt_mapLines h _ := union_of_map h (by simp [excerpts_map h, excerpt_mapLines h])

instance : Shown Argument where
  mapLines f a := ⟨mapLines f a.name, mapLines f a.type, a.comma.map (mapLines f)⟩
  detach_mapLines f a :=
    (Argument.mk.injEq ..).mpr
      ⟨detach_mapLines f a.name, detach_mapLines f a.type, map_detach_map f a.comma⟩
  excerpt_mapLines h _ := union_of_map h (by simp [excerptOf?_map h, excerpt_mapLines h])

instance : Shown ReturnType where
  mapLines f r := ⟨mapLines f r.type, r.comma.map (mapLines f)⟩
  detach_mapLines f r :=
    (ReturnType.mk.injEq ..).mpr ⟨detach_mapLines f r.type, map_detach_map f r.comma⟩
  excerpt_mapLines h _ := union_of_map h (by simp [excerptOf?_map h, excerpt_mapLines h])

instance : Shown ReturnTypes where
  mapLines f r := ⟨mapLines f r.opener, r.types.map (mapLines f), mapLines f r.closer⟩
  detach_mapLines f r :=
    (ReturnTypes.mk.injEq ..).mpr
      ⟨detach_mapLines f r.opener, detachAll_map f r.types, detach_mapLines f r.closer⟩
  excerpt_mapLines h _ := union_of_map h (by simp [excerpts_map h, excerpt_mapLines h])

/-! ## Expressions and statements -/

/-- An expression on other lines. -/
def Expression.mapLines (f : Line → Line) : Expression → Expression
  | .leaf t => .leaf (t.mapLines f)
  | .binary left operator right =>
    .binary (left.mapLines f) (operator.mapLines f) (right.mapLines f)

theorem Expression.tokens_mapLines (f : Line → Line) (e : Expression) :
    (e.mapLines f).tokens = e.tokens.map (Token.mapLines f) := by
  induction e with
  | leaf t => rfl
  | binary left operator right ihl ihr => simp [Expression.mapLines, ihl, ihr]

theorem Expression.detach_mapLines (f : Line → Line) (e : Expression) :
    (e.mapLines f).detach = e.detach := by
  induction e with
  | leaf t => rfl
  | binary left operator right ihl ihr =>
      rw [Expression.mapLines, Expression.detach, ihl, ihr]
      rfl

instance : Shown Expression where
  mapLines := Expression.mapLines
  detach_mapLines := Expression.detach_mapLines
  excerpt_mapLines {f _} h e := by
    cases e with
    | leaf t => rfl
    | binary left operator right =>
        have htokens := Expression.tokens_mapLines f (.binary left operator right)
        exact union_of_map h ((congrArg excerpts htokens).trans (excerpts_map h _))

instance : Shown ListedValue where
  mapLines f v := ⟨mapLines f v.expression, v.comma.map (mapLines f)⟩
  detach_mapLines f v :=
    (ListedValue.mk.injEq ..).mpr ⟨detach_mapLines f v.expression, map_detach_map f v.comma⟩
  excerpt_mapLines h _ := union_of_map h (by simp [excerptOf?_map h, excerpt_mapLines h])

instance : Shown ValueList where
  mapLines f l := ⟨l.values.map (mapLines f)⟩
  detach_mapLines f l := congrArg ValueList.mk (detachAll_map f l.values)
  excerpt_mapLines h l := union_of_map h (excerpts_map h l.values)

instance : Shown ReturnStatement where
  mapLines f s := ⟨mapLines f s.keyword, mapLines f s.values⟩
  detach_mapLines f s :=
    (ReturnStatement.mk.injEq ..).mpr ⟨detach_mapLines f s.keyword, detach_mapLines f s.values⟩
  excerpt_mapLines h _ := union_of_map h (by simp [excerpt_mapLines h])

/-! ## Functions and directives -/

instance : Shown FunctionDecl where
  mapLines f d :=
    { keyword := mapLines f d.keyword
      name := mapLines f d.name
      openParen := mapLines f d.openParen
      arguments := d.arguments.map (mapLines f)
      closeParen := mapLines f d.closeParen
      returns := d.returns.map (mapLines f)
      openBrace := mapLines f d.openBrace
      statements := d.statements.map (mapLines f)
      closeBrace := mapLines f d.closeBrace }
  detach_mapLines f d :=
    (FunctionDecl.mk.injEq ..).mpr
      ⟨detach_mapLines f d.keyword, detach_mapLines f d.name, detach_mapLines f d.openParen,
        detachAll_map f d.arguments, detach_mapLines f d.closeParen, map_detach_map f d.returns,
        detach_mapLines f d.openBrace, detachAll_map f d.statements,
        detach_mapLines f d.closeBrace⟩
  excerpt_mapLines h _ :=
    union_of_map h (by simp [excerpts_map h, excerptOf?_map h, excerpt_mapLines h])

instance : Shown DirectiveHead where
  mapLines f d := ⟨mapLines f d.hash, mapLines f d.name⟩
  detach_mapLines f d :=
    (DirectiveHead.mk.injEq ..).mpr ⟨detach_mapLines f d.hash, detach_mapLines f d.name⟩
  excerpt_mapLines h _ := union_of_map h (by simp [excerpt_mapLines h])

instance : Shown Inclusion where
  mapLines f i :=
    ⟨mapLines f i.head, i.quote, mapLines f i.opener, mapLines f i.path, mapLines f i.closer⟩
  detach_mapLines f i :=
    (Inclusion.mk.injEq ..).mpr
      ⟨detach_mapLines f i.head, rfl, detach_mapLines f i.opener, detach_mapLines f i.path,
        detach_mapLines f i.closer⟩
  excerpt_mapLines h _ := union_of_map h (by simp [excerpt_mapLines h])

instance : Shown BlockBody where
  mapLines f b := ⟨b.text, b.excerpt.mapLines f⟩
  detach_mapLines _ _ := rfl
  excerpt_mapLines _ _ := rfl

instance : Shown InlineBlock where
  mapLines f b :=
    ⟨mapLines f b.head, mapLines f b.tag, b.body.map (mapLines f), b.ending.mapLines f⟩
  detach_mapLines f b :=
    (InlineBlock.mk.injEq ..).mpr
      ⟨detach_mapLines f b.head, detach_mapLines f b.tag, map_detach_map f b.body, rfl⟩
  excerpt_mapLines h _ := union_of_map h (by simp [excerptOf?_map h, excerpt_mapLines h])

instance : Shown Directive where
  mapLines f
    | .inclusion i => .inclusion (mapLines f i)
    | .inlineBlock b => .inlineBlock (mapLines f b)
  detach_mapLines f
    | .inclusion i => congrArg Directive.inclusion (detach_mapLines f i)
    | .inlineBlock b => congrArg Directive.inlineBlock (detach_mapLines f b)
  excerpt_mapLines h
    | .inclusion i => excerpt_mapLines h i
    | .inlineBlock b => excerpt_mapLines h b

instance : Shown Declaration where
  mapLines f
    | .function d => .function (mapLines f d)
    | .directive d => .directive (mapLines f d)
  detach_mapLines f
    | .function d => congrArg Declaration.function (detach_mapLines f d)
    | .directive d => congrArg Declaration.directive (detach_mapLines f d)
  excerpt_mapLines h
    | .function d => excerpt_mapLines h d
    | .directive d => excerpt_mapLines h d

/-- An item on other lines. -/
def Item.mapLines (f : Line → Line) : Item → Item
  | .token t => .token (Shown.mapLines f t)
  | .directive d => .directive (Shown.mapLines f d)

theorem Item.excerpt_mapLines {f : Line → Line} {offset : Nat} (h : Lowers f offset)
    (item : Item) : (item.mapLines f).excerpt = item.excerpt.mapLines f := by
  cases item with
  | token t => rfl
  | directive d => exact Shown.excerpt_mapLines h d

end Kiln
