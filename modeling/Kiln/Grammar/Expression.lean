import Kiln.Grammar.Parsing

/-!
# Parsing expressions

An expression is operands joined by operators.  An operator that binds more
tightly takes its operands first, and of equal ones the left one does.

`takeExpression minimum` takes an operand and, as long as the next operator binds
at least as tightly as `minimum`, that operator and the expression of tighter
operators behind it.  Its equations are `takeExpression_token`,
`extendExpression_operator` and the like; `consumes_takeExpression` says that no
token is lost.
-/

namespace Kiln

/-- The tightness of the operator that is the first item, if it is one that binds
two operands at least as tightly as `minimum`. -/
def operatorAhead? (minimum : Nat) : List Item → Option Nat
  | .token t :: _ => t.kind.precedence?.filter (minimum ≤ ·)
  | _ => none

mutual

/-- An operand extended by the operators behind it, and the fact that items were
taken. -/
def climb (minimum : Nat) (items : List Item) :
    Except SyntaxFault { r : Expression × List Item // r.2.length < items.length } :=
  match items with
  | .token t :: rest =>
    if t.isOperand then
      match climbOn minimum (.leaf t) rest with
      | .error fault => .error fault
      | .ok ⟨r, h⟩ => .ok ⟨r, Nat.lt_succ_of_le h⟩
    else .error ⟨.expression, .token t :: rest⟩
  | .directive d :: rest => .error ⟨.expression, .directive d :: rest⟩
  | [] => .error ⟨.expression, []⟩
termination_by items.length

/-- An expression extended by the operators behind it. -/
def climbOn (minimum : Nat) (left : Expression) (items : List Item) :
    Except SyntaxFault { r : Expression × List Item // r.2.length ≤ items.length } :=
  match items with
  | .token t :: rest =>
    match t.kind.precedence?.filter (minimum ≤ ·) with
    | none => .ok ⟨(left, .token t :: rest), Nat.le_refl _⟩
    | some precedence =>
      match climb (precedence + 1) rest with
      | .error fault => .error fault
      | .ok ⟨(right, after), hright⟩ =>
        match climbOn minimum (.binary left t right) after with
        | .error fault => .error fault
        | .ok ⟨r, h⟩ =>
          .ok ⟨r, Nat.le_succ_of_le (Nat.le_trans h (Nat.le_of_lt hright))⟩
  | .directive d :: rest => .ok ⟨(left, .directive d :: rest), Nat.le_refl _⟩
  | [] => .ok ⟨(left, []), Nat.le_refl _⟩
termination_by items.length
decreasing_by
  · exact Nat.lt_succ_self _
  · exact Nat.lt_succ_of_lt hright

end

/-- Takes an expression of operators that bind at least as tightly as `minimum`. -/
def takeExpression (minimum : Nat) (items : List Item) : Parsed Expression :=
  (climb minimum items).map Subtype.val

/-- Extends an expression by the operators behind it that bind at least as tightly
as `minimum`. -/
def extendExpression (minimum : Nat) (left : Expression) (items : List Item) :
    Parsed Expression :=
  (climbOn minimum left items).map Subtype.val

theorem takeExpression_token (minimum : Nat) (t : Token) (rest : List Item) :
    takeExpression minimum (.token t :: rest) =
      if t.isOperand then extendExpression minimum (.leaf t) rest
      else .error ⟨.expression, .token t :: rest⟩ := by
  rw [takeExpression, climb]
  split
  · rw [extendExpression]
    cases climbOn minimum (.leaf t) rest <;> rfl
  · rfl

@[simp] theorem takeExpression_directive (minimum : Nat) (d : Directive) (rest : List Item) :
    takeExpression minimum (.directive d :: rest) =
      .error ⟨.expression, .directive d :: rest⟩ := by
  rw [takeExpression, climb]
  rfl

@[simp] theorem takeExpression_nil (minimum : Nat) :
    takeExpression minimum [] = .error ⟨.expression, []⟩ := by
  rw [takeExpression, climb]
  rfl

/-- Without an operator ahead the expression is complete. -/
theorem extendExpression_stop {minimum : Nat} {items : List Item}
    (h : operatorAhead? minimum items = none) (left : Expression) :
    extendExpression minimum left items = .ok (left, items) := by
  rw [extendExpression]
  match items with
  | [] => rw [climbOn]; rfl
  | .directive d :: rest => rw [climbOn]; rfl
  | .token t :: rest =>
    simp only [operatorAhead?] at h
    rw [climbOn, h]
    rfl

/-- An operator ahead takes the expression behind it as its right operand. -/
theorem extendExpression_operator {minimum precedence : Nat} {t : Token} {rest : List Item}
    (h : operatorAhead? minimum (.token t :: rest) = some precedence) (left : Expression) :
    extendExpression minimum left (.token t :: rest) =
      (takeExpression (precedence + 1) rest).andThen fun right after =>
        extendExpression minimum (.binary left t right) after := by
  simp only [operatorAhead?] at h
  rw [extendExpression, climbOn, h, takeExpression]
  dsimp only
  cases climb (precedence + 1) rest with
  | error fault => rfl
  | ok r =>
    obtain ⟨⟨right, after⟩, hright⟩ := r
    simp only [Except.map, Parsed.andThen, extendExpression]
    cases climbOn minimum (.binary left t right) after <;> rfl

@[simp] theorem Expression.tokensBefore_append (e : Expression) (rest more : List Token) :
    e.tokensBefore rest ++ more = e.tokensBefore (rest ++ more) := by
  induction e generalizing rest with
  | leaf token => rfl
  | binary left operator right ihl ihr =>
    simp only [tokensBefore, ihl, List.cons_append, ihr]

@[simp] theorem Expression.tokens_leaf (t : Token) : (leaf t).tokens = [t] := rfl

@[simp] theorem Expression.tokens_binary (left : Expression) (operator : Token)
    (right : Expression) :
    (binary left operator right).tokens = left.tokens ++ operator :: right.tokens := by
  simp [tokens, tokensBefore]

theorem Expression.tokens_ne_nil (e : Expression) : e.tokens ≠ [] := by
  cases e <;> simp

/-- Extending an expression keeps its tokens and adds those taken. -/
theorem extendExpression_append {minimum : Nat} {left e : Expression} {items rest : List Item}
    (h : extendExpression minimum left items = .ok (e, rest)) :
    left.tokens.map .token ++ items = e.tokens.map .token ++ rest := by
  induction hlen : items.length using Nat.strongRecOn
    generalizing minimum left e items rest with
  | ind n ih =>
    cases hahead : operatorAhead? minimum items with
    | none =>
      rw [extendExpression_stop hahead, Except.ok.injEq, Prod.mk.injEq] at h
      rw [h.1, h.2]
    | some precedence =>
      match items with
      | [] => cases hahead
      | .directive d :: after => cases hahead
      | .token t :: after =>
        rw [extendExpression_operator hahead, Parsed.andThen_eq_ok_iff] at h
        obtain ⟨right, after', hright, h⟩ := h
        have hafter : after = right.tokens.map .token ++ after' := by
          match after with
          | [] => simp at hright
          | .directive d :: more => simp at hright
          | .token s :: more =>
            rw [takeExpression_token] at hright
            split at hright
            · have := ih more.length
                (by simp only [List.length_cons] at hlen; omega) hright rfl
              simpa using this
            · cases hright
        have hlen' : after'.length < n := by
          rw [← hlen, hafter]
          simp only [List.length_cons, List.length_append]
          omega
        have := ih _ hlen' h rfl
        rw [← this, hafter]
        simp

theorem consumes_takeExpression (minimum : Nat) :
    Consumes (takeExpression minimum) Expression.tokens := by
  intro items e rest h
  refine ⟨?_, e.tokens_ne_nil⟩
  match items with
  | [] => simp at h
  | .directive d :: more => simp at h
  | .token t :: more =>
    rw [takeExpression_token] at h
    split at h
    · simpa using extendExpression_append h
    · cases h

/-- The lowest tightness of an operator. -/
def lowestPrecedence : Nat := 1

/-- Takes a list of expressions; an operand begins each of them, and the last one
may have a comma. -/
def takeValues (items : List Item) : Parsed ValueList :=
  (takeListed (beginsWith Token.isOperand) (takeExpression lowestPrecedence)
    (consumes_takeExpression lowestPrecedence).length_lt items).mapValue fun listed =>
      ⟨listed.map fun (expression, comma) => ⟨expression, comma⟩⟩

theorem takeValues_append {items rest : List Item} {values : ValueList}
    (h : takeValues items = .ok (values, rest)) :
    items = values.tokens.map .token ++ rest := by
  rw [takeValues, Parsed.mapValue_eq_ok_iff] at h
  obtain ⟨listed, hlisted, rfl⟩ := h
  rw [takeListed_append (consumes_takeExpression lowestPrecedence) hlisted]
  simp [listedTokens, ValueList.tokens, ListedValue.tokens, List.flatMap_map]

end Kiln
