import Kiln.Grammar.Expression
import Kiln.Proofs.Comparison.Essence
import Kiln.Proofs.Merging.Leaves
import Kiln.Proofs.Reading.Loops

/-!
# Nesting

A node merges the excerpts of its parts, which have been merged from those of their parts, and
so on down to the leaves; an expression merges the excerpts of all its tokens at once.  `Nests`
keeps account of this for every kind of node.  As grouping does not matter to merging, what
comes out is the union of the leaves either way.

The tokens of an expression are collected with a list of what is still to be visited
(`Expression.visitTurn`), first the left operand, then the operator, then the right operand.
-/

namespace Kiln

open Node Leafy

/-! ## Unions of unions -/

namespace Excerpt

/-- Parts that are nested over leaves: the leaves themselves, or parts one after the other, or
the union of parts, never with a leaf left out or out of order. -/
inductive Nests : List Excerpt → List Excerpt → Prop where
  | leaves (es : List Excerpt) : Nests es es
  | append {parts parts' leaves leaves' : List Excerpt} :
      Nests parts leaves → Nests parts' leaves' → Nests (parts ++ parts') (leaves ++ leaves')
  | union {parts leaves : List Excerpt} : Nests parts leaves → Nests [.union parts] leaves

variable {parts leaves es : List Excerpt}

theorem Named.union_singleton {name : String} {e : Excerpt} (he : e.Named name) :
    Excerpt.union [e] = e := by
  rw [union_cons he (List.forall_mem_nil _)]
  exact absorb_detached e

/-- However they are nested, parts of one file have the union of their leaves. -/
theorem Nests.union_eq {name : String} (h : Nests parts leaves)
    (hleaves : ∀ e ∈ leaves, e.Named name) :
    (∀ e ∈ parts, e.Named name) ∧ Excerpt.union parts = Excerpt.union leaves := by
  induction h with
  | leaves es => exact ⟨hleaves, rfl⟩
  | append h h' ih ih' =>
      obtain ⟨hfirst, hsecond⟩ := List.forall_mem_append.1 hleaves
      obtain ⟨hparts, hunion⟩ := ih hfirst
      obtain ⟨hparts', hunion'⟩ := ih' hsecond
      refine ⟨List.forall_mem_append.2 ⟨hparts, hparts'⟩, ?_⟩
      rw [Named.union_append hparts hparts', hunion, hunion', Named.union_append hfirst hsecond]
  | union h ih =>
      obtain ⟨hparts, hunion⟩ := ih hleaves
      have hpart := Named.union hparts
      exact ⟨List.forall_mem_singleton.2 hpart, hpart.union_singleton.trans hunion⟩

theorem union_eq_detached (h : ∀ e ∈ es, e = detached) : Excerpt.union es = detached := by
  rw [List.eq_replicate_of_mem h]
  induction es.length with
  | zero => rfl
  | succ n ih => exact ih

/-- Parts over detached leaves are detached. -/
theorem Nests.eq_detached (h : Nests parts leaves) (hleaves : ∀ e ∈ leaves, e = detached) :
    ∀ e ∈ parts, e = detached := by
  induction h with
  | leaves es => exact hleaves
  | append h h' ih ih' =>
      obtain ⟨hfirst, hsecond⟩ := List.forall_mem_append.1 hleaves
      exact List.forall_mem_append.2 ⟨ih hfirst, ih' hsecond⟩
  | union h ih => exact List.forall_mem_singleton.2 (union_eq_detached (ih hleaves))

end Excerpt

open Excerpt

/-! ## Kinds of nodes -/

/-- A kind of node whose excerpt is nested over its leaves, and of which nothing is left to be
detached once it has been. -/
class Nesting (α : Type) [Node α] [Leafy α] : Prop where
  nests : ∀ a : α, Nests [excerpt a] (leaves a)
  leaves_detach : ∀ a : α, ∀ e ∈ leaves (detach a), e = Excerpt.detached
  detach_detach : ∀ a : α, detach (detach a) = detach a

namespace Nesting

variable {α : Type} [Node α] [Leafy α] [Nesting α]

theorem nests_list (as : List α) : Nests (excerpts as) (as.flatMap leaves) := by
  induction as with
  | nil => exact .leaves []
  | cons a as ih => exact (nests a).append ih

theorem leaves_detachAll (as : List α) :
    ∀ e ∈ (detachAll as).flatMap leaves, e = Excerpt.detached := by
  intro e he
  obtain ⟨a, ha, he⟩ := List.mem_flatMap.1 he
  obtain ⟨a, -, rfl⟩ := List.mem_map.1 ha
  exact leaves_detach a e he

theorem leaves_map_detach (a : Option α) :
    ∀ e ∈ (a.map detach).toList.flatMap leaves, e = Excerpt.detached := by
  rw [Option.toList_map]
  exact leaves_detachAll a.toList

theorem detachAll_detachAll (as : List α) : detachAll (detachAll as) = detachAll as := by
  rw [detachAll, detachAll, List.map_map]
  exact List.map_congr_left fun a _ => detach_detach a

theorem map_detach_map_detach (a : Option α) : (a.map detach).map detach = a.map detach := by
  cases a with
  | none => rfl
  | some a => exact congrArg some (detach_detach a)

/-- The excerpt of a node is the union of its leaves, if they are of one file. -/
theorem excerpt_eq_union {name : String} {a : α} (h : ∀ e ∈ leaves a, e.Named name) :
    excerpt a = .union (leaves a) := by
  obtain ⟨hpart, hunion⟩ := (nests a).union_eq h
  rw [← hunion, (List.forall_mem_singleton.1 hpart).union_singleton]

/-- A detached node stands nowhere. -/
theorem excerpt_detach (a : α) : excerpt (detach a) = .detached :=
  (nests (detach a)).eq_detached (leaves_detach a) _ (List.mem_singleton_self _)

end Nesting

open Nesting

/-! ## Types and lists -/

instance : Nesting Token where
  nests t := .leaves [t.excerpt]
  leaves_detach _ := List.forall_mem_singleton.2 rfl
  detach_detach _ := rfl

instance : Nesting TypeName where
  nests t := .union (.append (nests_list t.stars) (nests t.base))
  leaves_detach t := List.forall_mem_append.2 ⟨leaves_detachAll t.stars, leaves_detach t.base⟩
  detach_detach t :=
    (TypeName.mk.injEq ..).mpr ⟨detachAll_detachAll t.stars, detach_detach t.base⟩

instance : Nesting Argument where
  nests a := .union (.append (nests a.name) (.append (nests a.type) (nests_list a.comma.toList)))
  leaves_detach a :=
    List.forall_mem_append.2 ⟨leaves_detach a.name,
      List.forall_mem_append.2 ⟨leaves_detach a.type, leaves_map_detach a.comma⟩⟩
  detach_detach a :=
    (Argument.mk.injEq ..).mpr
      ⟨detach_detach a.name, detach_detach a.type, map_detach_map_detach a.comma⟩

instance : Nesting ReturnType where
  nests r := .union (.append (nests r.type) (nests_list r.comma.toList))
  leaves_detach r := List.forall_mem_append.2 ⟨leaves_detach r.type, leaves_map_detach r.comma⟩
  detach_detach r :=
    (ReturnType.mk.injEq ..).mpr ⟨detach_detach r.type, map_detach_map_detach r.comma⟩

instance : Nesting ReturnTypes where
  nests r := .union (.append (.append (nests r.opener) (nests_list r.types)) (nests r.closer))
  leaves_detach r :=
    List.forall_mem_append.2
      ⟨List.forall_mem_append.2 ⟨leaves_detach r.opener, leaves_detachAll r.types⟩,
        leaves_detach r.closer⟩
  detach_detach r :=
    (ReturnTypes.mk.injEq ..).mpr
      ⟨detach_detach r.opener, detachAll_detachAll r.types, detach_detach r.closer⟩

theorem Expression.tokens_detach (e : Expression) : e.detach.tokens = detachAll e.tokens := by
  induction e with
  | leaf t => rfl
  | binary left operator right ihl ihr =>
      simp only [Expression.detach, tokens_binary, ihl, ihr, detachAll, List.map_append,
        List.map_cons]
      rfl

instance : Nesting Expression where
  nests
    | .leaf t => nests t
    | .binary left operator right =>
        .union (nests_list (Expression.binary left operator right).tokens)
  leaves_detach e := by
    show ∀ x ∈ e.detach.tokens.flatMap leaves, x = Excerpt.detached
    rw [e.tokens_detach]
    exact leaves_detachAll e.tokens
  detach_detach := Expression.detach_detach

instance : Nesting ListedValue where
  nests v := .union (.append (nests v.expression) (nests_list v.comma.toList))
  leaves_detach v :=
    List.forall_mem_append.2 ⟨leaves_detach v.expression, leaves_map_detach v.comma⟩
  detach_detach v :=
    (ListedValue.mk.injEq ..).mpr ⟨detach_detach v.expression, map_detach_map_detach v.comma⟩

instance : Nesting ValueList where
  nests l := .union (nests_list l.values)
  leaves_detach l := leaves_detachAll l.values
  detach_detach l := congrArg ValueList.mk (detachAll_detachAll l.values)

/-! ## Functions -/

instance : Nesting ReturnStatement where
  nests s := .union (.append (nests s.keyword) (nests s.values))
  leaves_detach s := List.forall_mem_append.2 ⟨leaves_detach s.keyword, leaves_detach s.values⟩
  detach_detach s :=
    (ReturnStatement.mk.injEq ..).mpr ⟨detach_detach s.keyword, detach_detach s.values⟩

instance : Nesting FunctionDecl where
  nests f :=
    .union <| (nests_list [f.keyword, f.name, f.openParen]).append (nests_list f.arguments)
      |>.append (nests f.closeParen) |>.append (nests_list f.returns.toList)
      |>.append (nests f.openBrace) |>.append (nests_list f.statements)
      |>.append (nests f.closeBrace)
  leaves_detach f := by
    have hhead := leaves_detachAll [f.keyword, f.name, f.openParen]
    have harguments := List.forall_mem_append.2 ⟨hhead, leaves_detachAll f.arguments⟩
    have hclose := List.forall_mem_append.2 ⟨harguments, leaves_detach f.closeParen⟩
    have hreturns := List.forall_mem_append.2 ⟨hclose, leaves_map_detach f.returns⟩
    have hopen := List.forall_mem_append.2 ⟨hreturns, leaves_detach f.openBrace⟩
    have hbody := List.forall_mem_append.2 ⟨hopen, leaves_detachAll f.statements⟩
    exact List.forall_mem_append.2 ⟨hbody, leaves_detach f.closeBrace⟩
  detach_detach f :=
    (FunctionDecl.mk.injEq ..).mpr
      ⟨detach_detach f.keyword, detach_detach f.name, detach_detach f.openParen,
        detachAll_detachAll f.arguments, detach_detach f.closeParen,
        map_detach_map_detach f.returns, detach_detach f.openBrace,
        detachAll_detachAll f.statements, detach_detach f.closeBrace⟩

/-! ## Directives -/

instance : Nesting DirectiveHead where
  nests h := .union (nests_list [h.hash, h.name])
  leaves_detach h := leaves_detachAll [h.hash, h.name]
  detach_detach h :=
    (DirectiveHead.mk.injEq ..).mpr ⟨detach_detach h.hash, detach_detach h.name⟩

instance : Nesting Inclusion where
  nests i := .union (.append (nests i.head) (nests_list [i.opener, i.path, i.closer]))
  leaves_detach i :=
    List.forall_mem_append.2
      ⟨leaves_detach i.head, leaves_detachAll [i.opener, i.path, i.closer]⟩
  detach_detach i :=
    (Inclusion.mk.injEq ..).mpr
      ⟨detach_detach i.head, rfl, detach_detach i.opener, detach_detach i.path,
        detach_detach i.closer⟩

instance : Nesting BlockBody where
  nests b := .leaves [b.excerpt]
  leaves_detach _ := List.forall_mem_singleton.2 rfl
  detach_detach _ := rfl

instance : Nesting InlineBlock where
  nests b :=
    .union <| (nests b.head).append (nests b.tag) |>.append (nests_list b.body.toList)
      |>.append (.leaves [b.ending])
  leaves_detach b := by
    have hhead := List.forall_mem_append.2 ⟨leaves_detach b.head, leaves_detach b.tag⟩
    have hbody := List.forall_mem_append.2 ⟨hhead, leaves_map_detach b.body⟩
    exact List.forall_mem_append.2 ⟨hbody, List.forall_mem_singleton.2 rfl⟩
  detach_detach b :=
    (InlineBlock.mk.injEq ..).mpr
      ⟨detach_detach b.head, detach_detach b.tag, map_detach_map_detach b.body, rfl⟩

/-! ## Declarations and documents -/

instance : Nesting Directive where
  nests
    | .inclusion i => nests i
    | .inlineBlock b => nests b
  leaves_detach
    | .inclusion i => leaves_detach i
    | .inlineBlock b => leaves_detach b
  detach_detach
    | .inclusion i => congrArg Directive.inclusion (detach_detach i)
    | .inlineBlock b => congrArg Directive.inlineBlock (detach_detach b)

instance : Nesting Declaration where
  nests
    | .function f => nests f
    | .directive d => nests d
  leaves_detach
    | .function f => leaves_detach f
    | .directive d => leaves_detach d
  detach_detach
    | .function f => congrArg Declaration.function (detach_detach f)
    | .directive d => congrArg Declaration.directive (detach_detach d)

instance : Nesting Document where
  nests d := .union (nests_list d.declarations)
  leaves_detach d := leaves_detachAll d.declarations
  detach_detach d := congrArg Document.mk (detachAll_detachAll d.declarations)

/-! ## Visiting an expression -/

namespace Expression

/-- The tokens of an expression: those of the left operand, the operator, and those of the
right operand. -/
def inOrder : Expression → List Token
  | .leaf token => [token]
  | .binary left operator right => left.inOrder ++ operator :: right.inOrder

theorem tokens_eq_inOrder (e : Expression) : e.tokens = e.inOrder := by
  induction e with
  | leaf t => rfl
  | binary left operator right ihl ihr => rw [tokens_binary, ihl, ihr, inOrder]

/-- What is still to be done: to visit an operand, or to put out an operator. -/
inductive Pending where
  | visit (e : Expression)
  | emit (t : Token)

/-- The tokens that come out of what is to be done. -/
def Pending.tokens : Pending → List Token
  | .visit e => e.inOrder
  | .emit t => [t]

/-- How many turns it takes to visit an expression. -/
def turns : Expression → Nat
  | .leaf _ => 1
  | .binary left _ right => left.turns + right.turns + 2

/-- How many turns it takes to do all that is to be done. -/
def turnsLeft : List Pending → Nat
  | [] => 0
  | .visit e :: pending => e.turns + turnsLeft pending
  | .emit _ :: pending => 1 + turnsLeft pending

/-- A turn of visiting takes what comes first of what is still to be done.  A token is put
out; of two operands and their operator, all three are to be done in this order. -/
def visitTurn : List Pending × List Token → (List Pending × List Token) ⊕ List Token
  | ([], out) => .inr out
  | (.emit t :: pending, out) => .inl (pending, out ++ [t])
  | (.visit (.leaf t) :: pending, out) => .inl (pending, out ++ [t])
  | (.visit (.binary left operator right) :: pending, out) =>
    .inl (.visit left :: .emit operator :: .visit right :: pending, out)

/-- The tokens put out so far and those still to come. -/
def expected (s : List Pending × List Token) : List Token := s.2 ++ s.1.flatMap Pending.tokens

/-- A turn that goes on takes away one of the turns to come and no token. -/
theorem visitTurn_inl {s next : List Pending × List Token} (h : visitTurn s = .inl next) :
    turnsLeft next.1 < turnsLeft s.1 ∧ expected next = expected s := by
  obtain ⟨_ | ⟨first, pending⟩, out⟩ := s
  · cases h
  · cases first with
    | emit t =>
        cases h
        simp [expected, turnsLeft, Pending.tokens]
    | visit e =>
        cases e with
        | leaf t =>
            cases h
            simp [expected, turnsLeft, Pending.tokens, turns, inOrder]
        | binary left operator right =>
            cases h
            simp only [expected, turnsLeft, Pending.tokens, turns, inOrder, List.flatMap_cons,
              List.append_assoc, List.cons_append, List.nil_append, and_true]
            omega

theorem visitTurn_inr {s : List Pending × List Token} {out : List Token}
    (h : visitTurn s = .inr out) : out = expected s := by
  obtain ⟨_ | ⟨first, pending⟩, front⟩ := s
  · cases h
    exact (List.append_nil _).symm
  · cases first with
    | emit t => cases h
    | visit e => cases e <;> cases h

/-- Visiting an expression ends, and gives its tokens in order. -/
theorem runFor_visitTurn {e : Expression} {n : Nat} (h : e.turns < n) :
    runFor visitTurn n ([.visit e], []) = some e.inOrder := by
  have hresult : expected ([.visit e], []) = e.inOrder := List.append_nil _
  rw [← hresult]
  exact runFor_eq_some (fun _ => True)
    (fun s : List Pending × List Token => turnsLeft s.1) expected
    (fun _ _ _ hnext => ⟨trivial, visitTurn_inl hnext⟩) (fun _ _ _ => visitTurn_inr) trivial h

/-- The excerpt of two operands joined by an operator is the union of the three excerpts. -/
theorem excerpt_binary {name : String} {left right : Expression} {operator : Token}
    (h : ∀ e ∈ leaves (binary left operator right), e.Named name) :
    Node.excerpt (binary left operator right) =
      .union [Node.excerpt left, Node.excerpt operator, Node.excerpt right] := by
  have hleaves : leaves (binary left operator right) =
      leaves left ++ (leaves operator ++ leaves right) := by
    show (binary left operator right).tokens.flatMap leaves = _
    rw [tokens_binary, List.flatMap_append, List.flatMap_cons]
    rfl
  have hnests := (nests left).append ((nests operator).append (nests right))
  -- both sides are nested over the same leaves
  rw [excerpt_eq_union h]
  rw [hleaves] at h ⊢
  exact (hnests.union_eq h).2.symm

end Expression

/-! ## Every node -/

/-- What holds of the nodes of every kind. -/
structure EveryNode (P : ∀ {α : Type} [Node α] [Leafy α], α → Prop) : Prop where
  token : ∀ t : Token, P t
  typeName : ∀ t : TypeName, P t
  argument : ∀ a : Argument, P a
  returnType : ∀ r : ReturnType, P r
  returnTypes : ∀ r : ReturnTypes, P r
  expression : ∀ e : Expression, P e
  listedValue : ∀ v : ListedValue, P v
  valueList : ∀ l : ValueList, P l
  returnStatement : ∀ s : ReturnStatement, P s
  function : ∀ f : FunctionDecl, P f
  directiveHead : ∀ h : DirectiveHead, P h
  inclusion : ∀ i : Inclusion, P i
  blockBody : ∀ b : BlockBody, P b
  inlineBlock : ∀ b : InlineBlock, P b
  directive : ∀ d : Directive, P d
  declaration : ∀ d : Declaration, P d
  document : ∀ d : Document, P d

theorem EveryNode.of_nesting {P : ∀ {α : Type} [Node α] [Leafy α], α → Prop}
    (h : ∀ {α : Type} [Node α] [Leafy α] [Nesting α] (a : α), P a) : EveryNode P :=
  ⟨h, h, h, h, h, h, h, h, h, h, h, h, h, h, h, h, h⟩

/-- A node of whatever kind, the leaves of which are of one file or detached, stands where its
leaves stand; detached it stands nowhere, and detaching it again changes nothing.  Visiting an
expression gives its tokens in order, and what is merged from all of them is merged from the
operands and the operator. -/
theorem everyNode_excerpt_eq_union :
    EveryNode (fun a =>
      (∀ name, (∀ e ∈ leaves a, e.Named name) → excerpt a = .union (leaves a)) ∧
        excerpt (detach a) = .detached ∧ detach (detach a) = detach a) ∧
    (∀ e : Expression, e.tokens = e.inOrder ∧
      ∀ n, e.turns < n → runFor Expression.visitTurn n ([.visit e], []) = some e.inOrder) ∧
    ∀ left operator right,
      excerpt (Expression.binary left operator right) =
        .union (excerpts (Expression.binary left operator right).inOrder) ∧
      ∀ name, (∀ e ∈ leaves (Expression.binary left operator right), e.Named name) →
        excerpt (Expression.binary left operator right) =
          .union [excerpt left, excerpt operator, excerpt right] := by
  refine ⟨.of_nesting fun a => ⟨fun _ => excerpt_eq_union, excerpt_detach a, detach_detach a⟩,
    fun e => ⟨e.tokens_eq_inOrder, fun _ => Expression.runFor_visitTurn⟩,
    fun left operator right => ⟨?_, fun _ => Expression.excerpt_binary⟩⟩
  rw [← Expression.tokens_eq_inOrder]
  rfl

/-- Of two operands on two lines and an operator that stands nowhere, what is merged from the
tokens is what is merged from the three. -/
theorem everyNode_excerpt_eq_union_twoLines :
    let left := Expression.leaf ⟨.identifier, "ab", ofTwoLines 0 ⟨0, 2⟩⟩
    let operator := Token.ofText (.operator .plus) "+"
    let right := Expression.leaf ⟨.identifier, "c", ofTwoLines 1 ⟨0, 1⟩⟩
    let e := Expression.binary left operator right
    (∀ x ∈ leaves e, x.Named twoLines.name) ∧
      excerpt e = .union [ofTwoLines 0 ⟨0, 2⟩, .detached, ofTwoLines 1 ⟨0, 1⟩] ∧
      excerpt e = .union [excerpt left, excerpt operator, excerpt right] ∧
      e.turns < 6 ∧ runFor Expression.visitTurn 6 ([.visit e], []) = some e.inOrder := by
  intro left operator right e
  have hleft : (ofTwoLines 0 ⟨0, 2⟩).Named twoLines.name := (of_ofHighlight _ rfl).named
  have hright : (ofTwoLines 1 ⟨0, 1⟩).Named twoLines.name := (of_ofHighlight _ rfl).named
  have hleaves : ∀ x ∈ leaves e, x.Named twoLines.name :=
    List.forall_mem_cons.2 ⟨hleft,
      List.forall_mem_cons.2 ⟨named_detached _, List.forall_mem_singleton.2 hright⟩⟩
  have hturns : e.turns < 6 := by decide
  obtain ⟨hevery, hvisit, hbinary⟩ := everyNode_excerpt_eq_union
  exact ⟨hleaves, (hevery.expression e).1 _ hleaves, (hbinary left operator right).2 _ hleaves,
    hturns, (hvisit e).2 6 hturns⟩

end Kiln
