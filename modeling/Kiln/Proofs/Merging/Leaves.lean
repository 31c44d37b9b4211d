import Kiln.Proofs.Merging.Excerpts
import Kiln.Tree.Item

/-!
# Leaves

The *leaves* of a node are the excerpts of its tokens, and those of the body and the closing
line of an inline block, in source order.  A node stands where its leaves stand: as grouping
does not matter to merging, its excerpt is the union of its leaves, however it is nested.
-/

namespace Kiln

namespace Excerpt

/-- Parts of a node that are put together from leaves: if the leaves come from one file, so do
the parts, and the union is the same. -/
def MadeOf (parts leaves : List Excerpt) : Prop :=
  ∀ file : File, (∀ e ∈ leaves, e.Of file) →
    (∀ e ∈ parts, e.Of file) ∧ union parts = union leaves

namespace MadeOf

variable {parts parts' leaves leaves' : List Excerpt}

theorem refl (leaves : List Excerpt) : MadeOf leaves leaves := fun _ h => ⟨h, rfl⟩

theorem append (h : MadeOf parts leaves) (h' : MadeOf parts' leaves') :
    MadeOf (parts ++ parts') (leaves ++ leaves') := by
  intro file hleaves
  obtain ⟨hfirst, hsecond⟩ := List.forall_mem_append.1 hleaves
  obtain ⟨hparts, hunion⟩ := h file hfirst
  obtain ⟨hparts', hunion'⟩ := h' file hsecond
  refine ⟨List.forall_mem_append.2 ⟨hparts, hparts'⟩, ?_⟩
  rw [union_append hparts hparts', union_append hfirst hsecond, hunion, hunion']

/-- The union of parts is one part. -/
theorem union (h : MadeOf parts leaves) : MadeOf [.union parts] leaves := by
  intro file hleaves
  obtain ⟨hparts, hunion⟩ := h file hleaves
  have hpart := of_union hparts
  refine ⟨List.forall_mem_singleton.2 hpart, ?_⟩
  rw [union_cons hpart (List.forall_mem_nil _), ← hunion]
  exact absorb_detached _

end MadeOf
end Excerpt

open Excerpt

/-- A kind of node that stands where its leaves stand. -/
class Leafy (α : Type) [Node α] where
  /-- The leaves of a node in source order. -/
  leaves : α → List Excerpt
  /-- Where a node stands is put together from its leaves. -/
  madeOf : ∀ a : α, MadeOf [Node.excerpt a] (leaves a)

export Leafy (leaves)

namespace Leafy

variable {α : Type} [Node α] [Leafy α] {file : File}

/-- The excerpt of a node is the union of its leaves. -/
theorem excerpt_eq_union {a : α} (h : ∀ e ∈ leaves a, e.Of file) :
    Node.excerpt a = .union (leaves a) := by
  obtain ⟨hpart, hunion⟩ := madeOf a file h
  rw [← hunion, union_cons (List.forall_mem_singleton.1 hpart) (List.forall_mem_nil _)]
  exact (absorb_detached _).symm

theorem madeOf_list (as : List α) : MadeOf (Node.excerpts as) (as.flatMap leaves) := by
  induction as with
  | nil => exact .refl []
  | cons a as ih => exact (madeOf a).append ih

end Leafy

open Leafy

/-! ## Types and lists -/

instance : Leafy Token where
  leaves t := [t.excerpt]
  madeOf _ := .refl _

instance : Leafy TypeName where
  leaves t := t.stars.flatMap leaves ++ leaves t.base
  madeOf t := .union (.append (madeOf_list t.stars) (madeOf t.base))

instance : Leafy Argument where
  leaves a := leaves a.name ++ (leaves a.type ++ a.comma.toList.flatMap leaves)
  madeOf a :=
    .union (.append (madeOf a.name) (.append (madeOf a.type) (madeOf_list a.comma.toList)))

instance : Leafy ReturnType where
  leaves r := leaves r.type ++ r.comma.toList.flatMap leaves
  madeOf r := .union (.append (madeOf r.type) (madeOf_list r.comma.toList))

instance : Leafy ReturnTypes where
  leaves r := leaves r.opener ++ r.types.flatMap leaves ++ leaves r.closer
  madeOf r :=
    .union (.append (.append (madeOf r.opener) (madeOf_list r.types)) (madeOf r.closer))

instance : Leafy Expression where
  leaves e := e.tokens.flatMap leaves
  madeOf
    | .leaf t => madeOf t
    | .binary left operator right =>
        .union (madeOf_list (Expression.binary left operator right).tokens)

instance : Leafy ListedValue where
  leaves v := leaves v.expression ++ v.comma.toList.flatMap leaves
  madeOf v := .union (.append (madeOf v.expression) (madeOf_list v.comma.toList))

instance : Leafy ValueList where
  leaves l := l.values.flatMap leaves
  madeOf l := .union (madeOf_list l.values)

/-! ## Functions -/

instance : Leafy ReturnStatement where
  leaves s := leaves s.keyword ++ leaves s.values
  madeOf s := .union (.append (madeOf s.keyword) (madeOf s.values))

instance : Leafy FunctionDecl where
  leaves f :=
    [f.keyword, f.name, f.openParen].flatMap leaves ++ f.arguments.flatMap leaves ++
      leaves f.closeParen ++ f.returns.toList.flatMap leaves ++ leaves f.openBrace ++
      f.statements.flatMap leaves ++ leaves f.closeBrace
  madeOf f :=
    .union <| (madeOf_list [f.keyword, f.name, f.openParen]).append (madeOf_list f.arguments)
      |>.append (madeOf f.closeParen) |>.append (madeOf_list f.returns.toList)
      |>.append (madeOf f.openBrace) |>.append (madeOf_list f.statements)
      |>.append (madeOf f.closeBrace)

/-! ## Directives -/

instance : Leafy DirectiveHead where
  leaves h := [h.hash, h.name].flatMap leaves
  madeOf h := .union (madeOf_list [h.hash, h.name])

instance : Leafy Inclusion where
  leaves i := leaves i.head ++ [i.opener, i.path, i.closer].flatMap leaves
  madeOf i := .union (.append (madeOf i.head) (madeOf_list [i.opener, i.path, i.closer]))

instance : Leafy BlockBody where
  leaves b := [b.excerpt]
  madeOf _ := .refl _

instance : Leafy InlineBlock where
  leaves b := leaves b.head ++ leaves b.tag ++ b.body.toList.flatMap leaves ++ [b.ending]
  madeOf b :=
    .union <| (madeOf b.head).append (madeOf b.tag) |>.append (madeOf_list b.body.toList)
      |>.append (.refl [b.ending])

/-! ## Declarations and documents -/

instance : Leafy Directive where
  leaves
    | .inclusion i => leaves i
    | .inlineBlock b => leaves b
  madeOf
    | .inclusion i => madeOf i
    | .inlineBlock b => madeOf b

instance : Leafy Declaration where
  leaves
    | .function f => leaves f
    | .directive d => leaves d
  madeOf
    | .function f => madeOf f
    | .directive d => madeOf d

instance : Leafy Document where
  leaves d := d.declarations.flatMap leaves
  madeOf d := .union (madeOf_list d.declarations)

/-! ## Leaves of items -/

/-- If the leaves of every node are those of its tokens, so are the leaves of a list. -/
theorem flatMap_leaves {α : Type} [Node α] [Leafy α] {tokens : α → List Token}
    (h : ∀ a, leaves a = (tokens a).flatMap leaves) (as : List α) :
    as.flatMap leaves = (as.flatMap tokens).flatMap leaves := by
  rw [List.flatMap_assoc]
  exact congrArg as.flatMap (funext h)

theorem leaves_typeName (t : TypeName) : leaves t = t.tokens.flatMap leaves := by
  rw [TypeName.tokens, List.flatMap_append, List.flatMap_singleton]
  rfl

theorem leaves_argument (a : Argument) : leaves a = a.tokens.flatMap leaves := by
  rw [Argument.tokens, List.cons_append, List.flatMap_cons, List.flatMap_append,
    ← leaves_typeName]
  rfl

theorem leaves_returnType (r : ReturnType) : leaves r = r.tokens.flatMap leaves := by
  rw [ReturnType.tokens, List.flatMap_append, ← leaves_typeName]
  rfl

theorem leaves_returnTypes (r : ReturnTypes) : leaves r = r.tokens.flatMap leaves := by
  rw [ReturnTypes.tokens, List.flatMap_append, List.flatMap_cons, List.flatMap_singleton,
    ← flatMap_leaves leaves_returnType]
  rfl

theorem leaves_listedValue (v : ListedValue) : leaves v = v.tokens.flatMap leaves := by
  rw [ListedValue.tokens, List.flatMap_append]
  rfl

theorem leaves_returnStatement (s : ReturnStatement) : leaves s = s.tokens.flatMap leaves := by
  rw [ReturnStatement.tokens, ValueList.tokens, List.flatMap_cons,
    ← flatMap_leaves leaves_listedValue]
  rfl

theorem leaves_function (f : FunctionDecl) : leaves f = f.tokens.flatMap leaves := by
  simp only [FunctionDecl.tokens, List.flatMap_append, ← flatMap_leaves leaves_argument,
    ← flatMap_leaves leaves_returnTypes, ← flatMap_leaves leaves_returnStatement,
    List.flatMap_singleton]
  rfl

/-- The leaves of an item. -/
def Item.leaves : Item → List Excerpt
  | .token t => Kiln.leaves t
  | .directive d => Kiln.leaves d

/-- The leaves of a document are those of its items. -/
theorem leaves_document (d : Document) : leaves d = d.items.flatMap Item.leaves := by
  rw [Document.items, List.flatMap_assoc]
  refine congrArg d.declarations.flatMap (funext fun declaration => ?_)
  cases declaration with
  | function f =>
      rw [Declaration.items, List.flatMap_map]
      exact leaves_function f
  | directive d => exact (List.flatMap_singleton ..).symm

end Kiln
