import Kiln.Proofs.Grammar.Grammatical
import Kiln.Tree.Item

/-!
# Trees up to places

A tree can be written with other tokens of the same kinds and texts: for items that
are those of a tree up to where they stand, there is a tree that has these very items
and is the same up to places.  Where a tree stands is of no matter for whether it is
grammatical.
-/

namespace Kiln

/-- The item without any place. -/
def Item.detach : Item → Item
  | .token t => .token t.detach
  | .directive d => .directive (Node.detach d)

/-! ## Trees of given tokens -/

section Restores

variable {ι α β : Type} {erase : ι → ι}

/-- For parts that are those of a value once something is erased from them, there is
a value with these parts that is the same once the like is erased from it. -/
def Restores (erase : ι → ι) (parts : α → List ι) (detach : α → α) : Prop :=
  ∀ (a : α) (is : List ι), is.map erase = (parts a).map erase →
    ∃ a', parts a' = is ∧ detach a' = detach a

theorem restores_single (erase : ι → ι) : Restores erase (fun i => [i]) erase := by
  intro i is h
  obtain ⟨i', rfl, hi⟩ := List.map_eq_singleton_iff.1 h
  exact ⟨i', rfl, hi⟩

theorem restores_id (erase : ι → ι) : Restores erase (fun is => is) (List.map erase) := by
  intro is is' h
  exact ⟨is', rfl, h⟩

variable {parts : α → List ι} {detach : α → α} {parts' : β → List ι} {detach' : β → β}

theorem Restores.pair (h : Restores erase parts detach) (h' : Restores erase parts' detach') :
    Restores erase (fun p : α × β => parts p.1 ++ parts' p.2) (Prod.map detach detach') := by
  rintro ⟨a, b⟩ is his
  rw [List.map_append] at his
  obtain ⟨front, back, rfl, hfront, hback⟩ := List.map_eq_append_iff.1 his
  obtain ⟨a', rfl, ha⟩ := h a front hfront
  obtain ⟨b', rfl, hb⟩ := h' b back hback
  exact ⟨(a', b'), rfl, Prod.ext ha hb⟩

theorem Restores.list (h : Restores erase parts detach) :
    Restores erase (fun as => as.flatMap parts) (List.map detach) := by
  intro as
  induction as with
  | nil =>
      intro is his
      exact ⟨[], (List.map_eq_nil_iff.1 his).symm, rfl⟩
  | cons a as ih =>
      intro is his
      dsimp only at his
      rw [List.flatMap_cons, List.map_append] at his
      obtain ⟨front, back, rfl, hfront, hback⟩ := List.map_eq_append_iff.1 his
      obtain ⟨a', rfl, ha⟩ := h a front hfront
      obtain ⟨as', rfl, has⟩ := ih back hback
      exact ⟨a' :: as', rfl, by rw [List.map_cons, List.map_cons, ha, has]⟩

theorem Restores.option (h : Restores erase parts detach) :
    Restores erase (fun a => a.toList.flatMap parts) (Option.map detach) := by
  intro a is his
  cases a with
  | none => exact ⟨none, (List.map_eq_nil_iff.1 his).symm, rfl⟩
  | some a =>
      dsimp only at his
      rw [Option.toList_some, List.flatMap_singleton] at his
      obtain ⟨a', rfl, ha⟩ := h a is his
      exact ⟨some a', List.flatMap_singleton _ _, congrArg some ha⟩

/-- Values that are made of others are restored from these. -/
theorem Restores.made (h : Restores erase parts detach) {f : α → β}
    (hmade : ∀ b, ∃ a, f a = b) (hparts : ∀ a, parts' (f a) = parts a)
    (hdetach : ∀ a, detach' (f a) = f (detach a)) : Restores erase parts' detach' := by
  intro b is his
  obtain ⟨a, rfl⟩ := hmade b
  rw [hparts] at his
  obtain ⟨a', rfl, ha⟩ := h a is his
  exact ⟨f a', hparts a', by rw [hdetach, hdetach, ha]⟩

end Restores

theorem restores_token : Restores Token.detach (fun t => [t]) Token.detach :=
  restores_single Token.detach

theorem restores_comma : Restores Token.detach Option.toList (Option.map Token.detach) :=
  restores_token.option.made (f := id) (fun comma => ⟨comma, rfl⟩)
    (fun comma => by cases comma <;> rfl) fun _ => rfl

theorem restores_typeName : Restores Token.detach TypeName.tokens Node.detach :=
  ((restores_id Token.detach).pair restores_token).made (f := fun p => ⟨p.1, p.2⟩)
    (fun type => ⟨(type.stars, type.base), rfl⟩) (fun _ => rfl) fun _ => rfl

theorem restores_argument : Restores Token.detach Argument.tokens Node.detach :=
  (restores_token.pair (restores_typeName.pair restores_comma)).made
    (f := fun p => ⟨p.1, p.2.1, p.2.2⟩) (fun a => ⟨(a.name, a.type, a.comma), rfl⟩)
    (fun _ => rfl) fun _ => rfl

theorem restores_returnType : Restores Token.detach ReturnType.tokens Node.detach :=
  (restores_typeName.pair restores_comma).made (f := fun p => ⟨p.1, p.2⟩)
    (fun r => ⟨(r.type, r.comma), rfl⟩) (fun _ => rfl) fun _ => rfl

theorem restores_returnTypes : Restores Token.detach ReturnTypes.tokens Node.detach :=
  ((restores_token.pair restores_returnType.list).pair restores_token).made
    (f := fun p => ⟨p.1.1, p.1.2, p.2⟩) (fun r => ⟨((r.opener, r.types), r.closer), rfl⟩)
    (fun _ => rfl) fun _ => rfl

theorem restores_expression : Restores Token.detach Expression.tokens Node.detach := by
  intro e
  induction e with
  | leaf t =>
      intro ts hts
      obtain ⟨t', rfl, ht⟩ := restores_token t ts hts
      exact ⟨.leaf t', rfl, congrArg Expression.leaf ht⟩
  | binary left operator right ihl ihr =>
      intro ts hts
      rw [Expression.tokens_binary, List.map_append, List.map_cons] at hts
      obtain ⟨front, back, rfl, hfront, hback⟩ := List.map_eq_append_iff.1 hts
      obtain ⟨operator', back, rfl, hoperator, hback⟩ := List.map_eq_cons_iff.1 hback
      obtain ⟨left', rfl, hleft⟩ := ihl front hfront
      obtain ⟨right', rfl, hright⟩ := ihr back hback
      refine ⟨.binary left' operator' right', Expression.tokens_binary _ _ _, ?_⟩
      show Expression.binary (Node.detach left') operator'.detach (Node.detach right') =
        Expression.binary (Node.detach left) operator.detach (Node.detach right)
      rw [hleft, hoperator, hright]

theorem restores_listedValue : Restores Token.detach ListedValue.tokens Node.detach :=
  (restores_expression.pair restores_comma).made (f := fun p => ⟨p.1, p.2⟩)
    (fun v => ⟨(v.expression, v.comma), rfl⟩) (fun _ => rfl) fun _ => rfl

theorem restores_statement : Restores Token.detach ReturnStatement.tokens Node.detach :=
  (restores_token.pair restores_listedValue.list).made (f := fun p => ⟨p.1, ⟨p.2⟩⟩)
    (fun s => ⟨(s.keyword, s.values.values), rfl⟩) (fun _ => rfl) fun _ => rfl

theorem restores_function : Restores Token.detach FunctionDecl.tokens Node.detach :=
  ((((((((restores_token.pair restores_token).pair restores_token).pair
    restores_argument.list).pair restores_token).pair restores_returnTypes.option).pair
      restores_token).pair restores_statement.list).pair restores_token).made
    (f := fun ((((((((keyword, name), openParen), arguments), closeParen), returns), openBrace),
        statements), closeBrace) =>
      ⟨keyword, name, openParen, arguments, closeParen, returns, openBrace, statements,
        closeBrace⟩)
    (fun f => ⟨((((((((f.keyword, f.name), f.openParen), f.arguments), f.closeParen), f.returns),
      f.openBrace), f.statements), f.closeBrace), rfl⟩) (fun _ => rfl) fun _ => rfl

/-- Items that are those of some tokens up to places are tokens. -/
theorem exists_of_detach_eq_tokens {items : List Item} {tokens : List Token}
    (h : items.map Item.detach = (tokens.map Item.token).map Item.detach) :
    ∃ tokens' : List Token, tokens'.map Item.token = items ∧
      tokens'.map Token.detach = tokens.map Token.detach := by
  induction tokens generalizing items with
  | nil => exact ⟨[], (List.map_eq_nil_iff.1 h).symm, rfl⟩
  | cons t tokens ih =>
      rw [List.map_cons, List.map_cons] at h
      obtain ⟨item, items, rfl, hitem, hitems⟩ := List.map_eq_cons_iff.1 h
      obtain ⟨tokens', rfl, htokens⟩ := ih hitems
      cases item with
      | directive d => cases hitem
      | token t' =>
          refine ⟨t' :: tokens', rfl, ?_⟩
          rw [List.map_cons, List.map_cons, htokens, Item.token.inj hitem]

theorem restores_declaration : Restores Item.detach Declaration.items Node.detach := by
  intro d items h
  cases d with
  | function f =>
      obtain ⟨tokens, rfl, htokens⟩ := exists_of_detach_eq_tokens h
      obtain ⟨f', rfl, hf⟩ := restores_function f tokens htokens
      exact ⟨.function f', rfl, congrArg Declaration.function hf⟩
  | directive d =>
      obtain ⟨item, rfl, hitem⟩ := List.map_eq_singleton_iff.1 h
      cases item with
      | token t => cases hitem
      | directive d' =>
          exact ⟨.directive d', rfl, congrArg Declaration.directive (Item.directive.inj hitem)⟩

/-- Items that are those of a document up to places are those of one that is the same
up to places. -/
theorem restores_document : Restores Item.detach Document.items Node.detach :=
  restores_declaration.list.made (f := Document.mk) (fun d => ⟨d.declarations, rfl⟩)
    (fun _ => rfl) fun _ => rfl

/-! ## Grammatical trees

Whether a token may stand in a place depends on its kind alone. -/

theorem CommasFit.of_detach {trailing : Bool} {commas : List (Option Token)}
    (h : CommasFit trailing (commas.map (Option.map Token.detach))) :
    CommasFit trailing commas := by
  constructor
  · intro comma hcomma
    have hmem : comma.map Token.detach ∈ (commas.map (Option.map Token.detach)).dropLast := by
      rw [← List.map_dropLast]
      exact List.mem_map_of_mem hcomma
    obtain ⟨t, ht, hkind⟩ := h.between _ hmem
    obtain ⟨t', ht', rfl⟩ := Option.map_eq_some_iff.1 ht
    exact ⟨t', ht', hkind⟩
  · intro comma hcomma t ht
    have hmem : comma.map Token.detach ∈ (commas.map (Option.map Token.detach)).getLast? := by
      rw [List.getLast?_map, hcomma]
      rfl
    exact h.last _ hmem t.detach (Option.map_eq_some_iff.2 ⟨t, ht, rfl⟩)

theorem TypeName.Grammatical.of_detach {type : TypeName} (h : (Node.detach type).Grammatical) :
    type.Grammatical :=
  ⟨fun star hstar => h.stars star.detach (List.mem_map_of_mem hstar), h.base⟩

theorem Argument.Grammatical.of_detach {a : Argument} (h : (Node.detach a).Grammatical) :
    a.Grammatical :=
  ⟨h.name, .of_detach h.type⟩

theorem ReturnTypes.Grammatical.of_detach {r : ReturnTypes} (h : (Node.detach r).Grammatical) :
    r.Grammatical := by
  refine ⟨h.opener, ?_, .of_detach ?_, h.closer⟩
  · intro listed hlisted
    exact .of_detach (h.types (Node.detach listed) (List.mem_map_of_mem hlisted))
  · have hcommas := h.commas
    simp only [Node.detach, Node.detachAll, List.map_map] at hcommas ⊢
    exact hcommas

theorem Expression.bindsFrom_detach {minimum : Nat} {e : Expression}
    (h : (Node.detach e).BindsFrom minimum) : e.BindsFrom minimum := by
  cases e <;> exact h

theorem Expression.Grammatical.of_detach {e : Expression} (h : (Node.detach e).Grammatical) :
    e.Grammatical := by
  induction e with
  | leaf t => exact h
  | binary left operator right ihl ihr =>
      obtain ⟨hleft, hright, precedence, hprecedence, hbinds, hbinds'⟩ := h
      exact ⟨ihl hleft, ihr hright, precedence, hprecedence, bindsFrom_detach hbinds,
        bindsFrom_detach hbinds'⟩

theorem ReturnStatement.Grammatical.of_detach {s : ReturnStatement}
    (h : (Node.detach s).Grammatical) : s.Grammatical := by
  refine ⟨h.keyword, ?_, .of_detach ?_⟩
  · intro listed hlisted
    exact .of_detach (h.values (Node.detach listed) (List.mem_map_of_mem hlisted))
  · have hcommas := h.commas
    simp only [Node.detach, Node.detachAll, List.map_map] at hcommas ⊢
    exact hcommas

theorem FunctionDecl.Grammatical.of_detach {f : FunctionDecl}
    (h : (Node.detach f).Grammatical) : f.Grammatical := by
  refine ⟨h.keyword, h.name, h.openParen, ?_, .of_detach ?_, h.closeParen, ?_, h.openBrace, ?_,
    h.closeBrace⟩
  · intro a ha
    exact .of_detach (h.arguments (Node.detach a) (List.mem_map_of_mem ha))
  · have hcommas := h.argumentCommas
    simp only [Node.detach, Node.detachAll, List.map_map] at hcommas ⊢
    exact hcommas
  · intro types htypes
    exact .of_detach (h.returns (Node.detach types) (Option.map_eq_some_iff.2 ⟨types, htypes, rfl⟩))
  · intro s hs
    exact .of_detach (h.statements (Node.detach s) (List.mem_map_of_mem hs))

/-- A document is grammatical if it is so without any place. -/
theorem Document.Grammatical.of_detach {d : Document} (h : (Node.detach d).Grammatical) :
    d.Grammatical := by
  intro declaration hdeclaration
  have hdetached := h (Node.detach declaration) (List.mem_map_of_mem hdeclaration)
  cases declaration with
  | function f => exact FunctionDecl.Grammatical.of_detach hdetached
  | directive d => trivial

end Kiln
