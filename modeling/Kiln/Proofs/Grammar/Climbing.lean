import Kiln.Proofs.Grammar.Phrase

/-!
# Reading expressions

`takeExpression minimum` reads the grammatical expressions that hold together
against operators less tight than `minimum`.  The invariant of the climb is
`LeftOf`: what has been read so far is grammatical, and the operator ahead does not
bind more tightly than the one it ends in.
-/

namespace Kiln

/-- Whether a token joins two operands at least as tightly as `minimum`. -/
def Token.joinsFrom (minimum : Nat) (t : Token) : Bool :=
  (t.kind.precedence?.filter (minimum ≤ ·)).isSome

theorem Token.joinsFrom_iff {minimum : Nat} {t : Token} :
    t.joinsFrom minimum = true ↔
      ∃ precedence, t.kind.precedence? = some precedence ∧ minimum ≤ precedence := by
  cases h : t.kind.precedence? <;> simp [joinsFrom, h]

theorem operatorAhead?_eq_none_iff {minimum : Nat} {input : List Item} :
    operatorAhead? minimum input = none ↔
      isNext (Token.joinsFrom minimum) input.head? = false := by
  cases input with
  | nil => simp [operatorAhead?]
  | cons item input =>
      cases item with
      | token t => cases h : t.kind.precedence? <;> simp [operatorAhead?, Token.joinsFrom, h]
      | directive d => simp [operatorAhead?, isNext]

theorem operatorAhead?_token_eq_some_iff {minimum precedence : Nat} {t : Token}
    {rest : List Item} :
    operatorAhead? minimum (.token t :: rest) = some precedence ↔
      t.kind.precedence? = some precedence ∧ minimum ≤ precedence := by
  simp only [operatorAhead?, Option.filter_eq_some_iff, decide_eq_true_eq]

/-- Where no operator is tight enough, none is for a greater bound. -/
theorem isNext_joinsFrom_mono {minimum bound : Nat} {next : Option Item} (hle : minimum ≤ bound)
    (h : isNext (Token.joinsFrom minimum) next = false) :
    isNext (Token.joinsFrom bound) next = false := by
  rw [Bool.eq_false_iff, ne_eq, isNext_eq_true_iff] at h ⊢
  rintro ⟨t, rfl, ht⟩
  apply h
  obtain ⟨precedence, hprecedence, hbound⟩ := Token.joinsFrom_iff.1 ht
  exact ⟨t, rfl, Token.joinsFrom_iff.2 ⟨precedence, hprecedence, Nat.le_trans hle hbound⟩⟩

/-! ## The parser's cases -/

theorem takeExpression_operand {minimum : Nat} {t : Token} {rest : List Item}
    (ht : t.isOperand = true) :
    takeExpression minimum (.token t :: rest) = extendExpression minimum (.leaf t) rest := by
  rw [takeExpression_token, if_pos ht]

theorem takeExpression_of_not_operand {minimum : Nat} {input : List Item}
    (h : isNext Token.isOperand input.head? = false) :
    takeExpression minimum input = .error ⟨.expression, input⟩ := by
  cases input with
  | nil => exact takeExpression_nil minimum
  | cons item input =>
      cases item with
      | directive d => exact takeExpression_directive minimum d input
      | token t =>
          rw [takeExpression_token, if_neg]
          simpa using h

/-- An operator with a right operand is put on top of what has been read. -/
theorem extendExpression_step {minimum precedence : Nat} {t s : Token} {more after : List Item}
    {right : Expression} (left : Expression)
    (ht : operatorAhead? minimum (.token t :: .token s :: more) = some precedence)
    (hs : s.isOperand = true)
    (hright : extendExpression (precedence + 1) (.leaf s) more = .ok (right, after)) :
    extendExpression minimum left (.token t :: .token s :: more) =
      extendExpression minimum (.binary left t right) after := by
  rw [extendExpression_operator ht, takeExpression_operand hs, hright]
  rfl

/-- Induction along a climb: no operator is ahead; an operator has no operand behind
it; its right operand is read as an expression of its own, and the climb goes on
behind that. -/
theorem extendExpression_induct {motive : Nat → Expression → List Item → Prop}
    (stop : ∀ minimum left input, operatorAhead? minimum input = none →
      motive minimum left input)
    (unfinished : ∀ minimum left precedence t after,
      operatorAhead? minimum (.token t :: after) = some precedence →
      isNext Token.isOperand after.head? = false → motive minimum left (.token t :: after))
    (step : ∀ minimum left precedence t s more,
      operatorAhead? minimum (.token t :: .token s :: more) = some precedence →
      s.isOperand = true → motive (precedence + 1) (.leaf s) more →
      (∀ right after, extendExpression (precedence + 1) (.leaf s) more = .ok (right, after) →
        motive minimum (.binary left t right) after) →
      motive minimum left (.token t :: .token s :: more))
    (minimum : Nat) (left : Expression) (input : List Item) : motive minimum left input := by
  induction hlen : input.length using Nat.strongRecOn generalizing minimum left input with
  | ind n ih =>
      cases hahead : operatorAhead? minimum input with
      | none => exact stop minimum left input hahead
      | some precedence =>
          match input with
          | [] => cases hahead
          | .directive d :: after => cases hahead
          | .token t :: after =>
              cases hoperand : isNext Token.isOperand after.head? with
              | false => exact unfinished minimum left precedence t after hahead hoperand
              | true =>
                  obtain ⟨s, more, rfl, hs⟩ := exists_of_isNext hoperand
                  simp only [List.length_cons] at hlen
                  apply step minimum left precedence t s more hahead hs
                  · exact ih more.length (by omega) _ _ more rfl
                  · intro right after hright
                    refine ih after.length ?_ _ _ after rfl
                    have happend := congrArg List.length (extendExpression_append hright)
                    have hpos := List.length_pos_iff.2 right.tokens_ne_nil
                    simp only [Expression.tokens_leaf, List.map_cons, List.map_nil,
                      List.length_append, List.length_cons, List.length_nil,
                      List.length_map] at happend
                    omega

/-! ## Acceptance -/

/-- What has been read stands to the left of what is ahead: it is grammatical, holds
together, and does not end in an operator that gives way to the next one. -/
structure Expression.LeftOf (minimum : Nat) (left : Expression) (input : List Item) : Prop where
  grammatical : left.Grammatical
  bindsFrom : left.BindsFrom minimum
  yields : ∀ precedence ∈ left.precedence?,
    isNext (Token.joinsFrom (precedence + 1)) input.head? = false

theorem Expression.leftOf_leaf (minimum : Nat) {t : Token} (ht : t.isOperand = true)
    (input : List Item) : (leaf t).LeftOf minimum input :=
  ⟨ht, by simp [BindsFrom, precedence?], by simp [precedence?]⟩

/-- An operator ahead takes what has been read as its left operand. -/
theorem Expression.LeftOf.binary {minimum precedence : Nat} {left right : Expression}
    {t : Token} {input after : List Item} (h : left.LeftOf minimum (.token t :: input))
    (ht : operatorAhead? minimum (.token t :: input) = some precedence)
    (hright : right.Grammatical) (hbinds : right.BindsFrom (precedence + 1))
    (hafter : isNext (Token.joinsFrom (precedence + 1)) after.head? = false) :
    (Expression.binary left t right).LeftOf minimum after := by
  obtain ⟨hprecedence, hminimum⟩ := operatorAhead?_token_eq_some_iff.1 ht
  refine ⟨⟨h.grammatical, hright, precedence, hprecedence, ?_, hbinds⟩, ?_, ?_⟩
  · intro bound hbound
    have hyields := h.yields bound hbound
    simp only [List.head?_cons, isNext_token, Bool.eq_false_iff, ne_eq, Token.joinsFrom_iff,
      hprecedence, Option.some.injEq, exists_eq_left'] at hyields
    omega
  · intro bound hbound
    rw [Expression.precedence?, hprecedence, Option.mem_some_iff] at hbound
    exact hbound ▸ hminimum
  · intro bound hbound
    rw [Expression.precedence?, hprecedence, Option.mem_some_iff] at hbound
    exact hbound ▸ hafter

namespace Phrase

/-- The expressions that hold together against operators less tight than
`minimum`. -/
def expression (minimum : Nat) : Phrase Expression where
  Fits e := e.Grammatical ∧ e.BindsFrom minimum
  marked := Expression.marked
  EndsBefore _ next := isNext (Token.joinsFrom minimum) next = false

theorem items_expression (minimum : Nat) (e : Expression) :
    (expression minimum).items e = e.tokens.map .token :=
  e.itemsOf_marked

end Phrase

/-- What a climb gives is grammatical and ends where no operator is tight enough. -/
theorem extendExpression_sound {minimum : Nat} {left e : Expression} {input rest : List Item}
    (hleft : left.LeftOf minimum input)
    (h : extendExpression minimum left input = .ok (e, rest)) :
    e.LeftOf minimum rest ∧ isNext (Token.joinsFrom minimum) rest.head? = false := by
  induction minimum, left, input using extendExpression_induct generalizing e rest with
  | stop minimum left input hahead =>
      rw [extendExpression_stop hahead] at h
      cases h
      exact ⟨hleft, operatorAhead?_eq_none_iff.1 hahead⟩
  | unfinished minimum left precedence t after hahead hoperand =>
      rw [extendExpression_operator hahead, takeExpression_of_not_operand hoperand] at h
      cases h
  | step minimum left precedence t s more hahead hs ih ihstep =>
      cases hright : extendExpression (precedence + 1) (.leaf s) more with
      | error fault =>
          rw [extendExpression_operator hahead, takeExpression_operand hs, hright] at h
          cases h
      | ok r =>
          obtain ⟨right, after⟩ := r
          rw [extendExpression_step left hahead hs hright] at h
          obtain ⟨hgood, hafter⟩ := ih (Expression.leftOf_leaf _ hs more) hright
          exact ihstep right after hright
            (hleft.binary hahead hgood.grammatical hgood.bindsFrom hafter) h

/-- Reading the tokens of an expression comes to the same as having read it. -/
theorem takeExpression_marked {minimum : Nat} {e : Expression} {rest : List Item}
    (h : e.LeftOf minimum rest) :
    takeExpression minimum (itemsOf e.marked ++ rest) = extendExpression minimum e rest := by
  induction e generalizing minimum rest with
  | leaf t => exact takeExpression_operand h.grammatical
  | binary left operator right ihl ihr =>
      obtain ⟨hleft, hright, precedence, hprecedence, hlbinds, hrbinds⟩ := h.grammatical
      have hminimum : minimum ≤ precedence := h.bindsFrom precedence hprecedence
      have hrest := h.yields precedence hprecedence
      have hahead : operatorAhead? minimum (.token operator :: (itemsOf right.marked ++ rest)) =
          some precedence :=
        operatorAhead?_token_eq_some_iff.2 ⟨hprecedence, hminimum⟩
      have hleftOf : left.LeftOf minimum
          (.token operator :: (itemsOf right.marked ++ rest)) := by
        refine ⟨hleft, fun bound hbound => Nat.le_trans hminimum (hlbinds bound hbound), ?_⟩
        intro bound hbound
        have := hlbinds bound hbound
        rw [List.head?_cons, isNext_token, Bool.eq_false_iff, ne_eq, Token.joinsFrom_iff]
        rintro ⟨other, hother, hle⟩
        rw [hprecedence, Option.some.injEq] at hother
        omega
      have hrightOf : right.LeftOf (precedence + 1) rest := by
        refine ⟨hright, hrbinds, ?_⟩
        intro bound hbound
        exact isNext_joinsFrom_mono (Nat.le_succ_of_le (hrbinds bound hbound)) hrest
      rw [Expression.marked, itemsOf_append, itemsOf_cons, List.append_assoc, List.cons_append,
        ihl hleftOf, extendExpression_operator hahead, ihr hrightOf,
        extendExpression_stop (operatorAhead?_eq_none_iff.2 hrest)]
      rfl

/-- A grammatical expression stands to the left of where it is over. -/
theorem Phrase.leftOf_of_fits {minimum : Nat} {e : Expression} {rest : List Item}
    (hfits : (Phrase.expression minimum).Fits e)
    (hends : isNext (Token.joinsFrom minimum) rest.head? = false) :
    e.LeftOf minimum rest := by
  refine ⟨hfits.1, hfits.2, ?_⟩
  intro precedence hprecedence
  exact isNext_joinsFrom_mono (Nat.le_succ_of_le (hfits.2 precedence hprecedence)) hends

theorem acceptedBy_takeExpression (minimum : Nat) :
    (Phrase.expression minimum).AcceptedBy (takeExpression minimum) := by
  intro input e rest
  constructor
  · intro h
    have hinput := (consumes_takeExpression minimum h).1
    cases hoperand : isNext Token.isOperand input.head? with
    | false =>
        rw [takeExpression_of_not_operand hoperand] at h
        cases h
    | true =>
        obtain ⟨t, more, rfl, ht⟩ := exists_of_isNext hoperand
        rw [takeExpression_operand ht] at h
        obtain ⟨hgood, hrest⟩ := extendExpression_sound (Expression.leftOf_leaf _ ht more) h
        refine ⟨⟨hgood.grammatical, hgood.bindsFrom⟩, hrest, ?_⟩
        rw [Phrase.items_expression]
        exact hinput
  · rintro ⟨hfits, hends, rfl⟩
    rw [Phrase.items, Phrase.expression, takeExpression_marked (Phrase.leftOf_of_fits hfits hends)]
    exact extendExpression_stop (operatorAhead?_eq_none_iff.2 hends) e

/-! ## Failure -/

/-- A climb is rightly stuck behind the tokens `before`, which end in an operator:
they go on from what had been read to a grammatical expression, and whatever follows
the item at fault changes nothing. -/
structure Expression.StuckBehind (minimum : Nat) (left : Expression) (fault : SyntaxFault)
    (before : List (Token × Bool)) : Prop where
  wanted : fault.wanted = .expression
  operator : endsInOperator before = true
  begins : ∃ e more, (Phrase.expression minimum).Fits e ∧
    e.marked = left.marked ++ before ++ more
  blocked : ∀ item ∈ fault.rest.head?, ∀ after,
    extendExpression minimum left (itemsOf before ++ item :: after) =
      .error ⟨fault.wanted, item :: after⟩

theorem Expression.StuckBehind.before_ne_nil {minimum : Nat} {left : Expression}
    {fault : SyntaxFault} {before : List (Token × Bool)}
    (h : left.StuckBehind minimum fault before) : before ≠ [] := by
  rintro rfl
  cases h.operator

section Stuck

variable {minimum precedence : Nat} {left right : Expression} {t s : Token}
  {input after more : List Item} {fault : SyntaxFault} {before : List (Token × Bool)}

/-- An operator without an operand behind it is where an expression is stuck: any operand
completes the expression. -/
theorem Expression.LeftOf.stuckBehind (hleft : left.LeftOf minimum (.token t :: after))
    (hahead : operatorAhead? minimum (.token t :: after) = some precedence)
    (hoperand : isNext Token.isOperand after.head? = false) :
    left.StuckBehind minimum ⟨.expression, after⟩ [(t, true)] := by
  refine ⟨rfl, rfl, ?_, ?_⟩
  · let operand : Token := .ofText .identifier ""
    have hwhole : (Expression.binary left t (.leaf operand)).LeftOf minimum [] :=
      hleft.binary hahead rfl (Expression.leftOf_leaf _ rfl []).bindsFrom rfl
    refine ⟨.binary left t (.leaf operand), [(operand, false)], ?_, ?_⟩
    · exact ⟨hwhole.grammatical, hwhole.bindsFrom⟩
    · simp [Expression.marked]
  · intro item hitem more
    have hnext : isNext Token.isOperand (item :: more).head? = false := by
      rw [Option.mem_def] at hitem
      simpa [hitem] using hoperand
    have hahead' : operatorAhead? minimum (.token t :: item :: more) = some precedence := hahead
    rw [itemsOf_cons, itemsOf_nil, List.cons_append, List.nil_append,
      extendExpression_operator hahead', takeExpression_of_not_operand hnext]
    rfl

/-- Where the operand behind an operator is stuck, the whole expression is. -/
theorem Expression.StuckBehind.operand (hleft : left.LeftOf minimum (.token t :: more))
    (hahead : operatorAhead? minimum (.token t :: more) = some precedence)
    (hs : s.isOperand = true)
    (h : (Expression.leaf s).StuckBehind (precedence + 1) fault before) :
    left.StuckBehind minimum fault ((t, true) :: (s, false) :: before) := by
  have hahead' : ∀ rest, operatorAhead? minimum (.token t :: rest) = some precedence :=
    fun _ => hahead
  obtain ⟨right, rest, hfits, hmarked⟩ := h.begins
  have hwhole : (Expression.binary left t right).LeftOf minimum [] :=
    hleft.binary hahead hfits.1 hfits.2 rfl
  refine ⟨h.wanted, ?_, ?_, ?_⟩
  · rw [← List.singleton_append, ← List.singleton_append (x := (s, false)),
      ← List.append_assoc, endsInOperator_append, if_neg h.before_ne_nil, h.operator]
  · refine ⟨.binary left t right, rest, ?_, ?_⟩
    · exact ⟨hwhole.grammatical, hwhole.bindsFrom⟩
    · simp [Expression.marked, hmarked]
  · intro item hitem after
    rw [itemsOf_cons, itemsOf_cons, List.cons_append, List.cons_append,
      extendExpression_operator (hahead' _), takeExpression_operand hs,
      h.blocked item hitem after]
    rfl

/-- Where an expression is stuck behind a joined operand, it is stuck behind the operator
and the operand. -/
theorem Expression.StuckBehind.joined
    (hahead : operatorAhead? minimum (.token t :: input) = some precedence)
    (htake : takeExpression (precedence + 1) input = .ok (right, itemsOf before ++ fault.rest))
    (h : (Expression.binary left t right).StuckBehind minimum fault before) :
    left.StuckBehind minimum fault ((t, true) :: right.marked ++ before) := by
  have hahead' : ∀ rest, operatorAhead? minimum (.token t :: rest) = some precedence :=
    fun _ => hahead
  obtain ⟨e, rest, hfits, hmarked⟩ := h.begins
  refine ⟨h.wanted, ?_, ?_, ?_⟩
  · rw [endsInOperator_append, if_neg h.before_ne_nil, h.operator]
  · refine ⟨e, rest, hfits, ?_⟩
    simp [hmarked, Expression.marked]
  · intro item hitem after
    have hhead : (itemsOf before ++ fault.rest).head? = (itemsOf before ++ item :: after).head? :=
      head?_append_congr hitem
    have hsame := (acceptedBy_takeExpression (precedence + 1)).congr htake hhead
    rw [Phrase.items, Phrase.expression] at hsame
    rw [List.cons_append, itemsOf_cons, itemsOf_append, List.cons_append,
      List.append_assoc, extendExpression_operator (hahead' _), hsame]
    exact h.blocked item hitem after

end Stuck

theorem extendExpression_stuck {minimum : Nat} {left : Expression} {input : List Item}
    {fault : SyntaxFault} (hleft : left.LeftOf minimum input)
    (h : extendExpression minimum left input = .error fault) :
    ∃ before, input = itemsOf before ++ fault.rest ∧ left.StuckBehind minimum fault before := by
  induction minimum, left, input using extendExpression_induct generalizing fault with
  | stop minimum left input hahead =>
      rw [extendExpression_stop hahead] at h
      cases h
  | unfinished minimum left precedence t after hahead hoperand =>
      rw [extendExpression_operator hahead, takeExpression_of_not_operand hoperand] at h
      cases h
      exact ⟨[(t, true)], rfl, hleft.stuckBehind hahead hoperand⟩
  | step minimum left precedence t s more hahead hs ih ihstep =>
      have hsleaf := Expression.leftOf_leaf (precedence + 1) hs more
      cases hright : extendExpression (precedence + 1) (.leaf s) more with
      | error fault' =>
          rw [extendExpression_operator hahead, takeExpression_operand hs, hright] at h
          cases h
          obtain ⟨before, rfl, hstuck⟩ := ih hsleaf hright
          exact ⟨(t, true) :: (s, false) :: before, rfl, hstuck.operand hleft hahead hs⟩
      | ok r =>
          obtain ⟨right, after⟩ := r
          rw [extendExpression_step left hahead hs hright] at h
          obtain ⟨hgood, hafter⟩ := extendExpression_sound hsleaf hright
          have hbinary := hleft.binary hahead hgood.grammatical hgood.bindsFrom hafter
          have htake : takeExpression (precedence + 1) (.token s :: more) = .ok (right, after) := by
            rw [takeExpression_operand hs, hright]
          obtain ⟨before, rfl, hstuck⟩ := ihstep right after hright hbinary h
          obtain ⟨-, -, hinput⟩ := (acceptedBy_takeExpression (precedence + 1) _ _ _).1 htake
          refine ⟨(t, true) :: right.marked ++ before, ?_, hstuck.joined hahead htake⟩
          rw [hinput]
          simp [Phrase.items, Phrase.expression]

/-- Where an operand is next, an expression fails only behind an operator. -/
theorem rightlyStuck_takeExpression {minimum : Nat} {input : List Item}
    (hoperand : isNext Token.isOperand input.head? = true) :
    (Phrase.expression minimum).RightlyStuck (takeExpression minimum) input := by
  intro fault h
  obtain ⟨t, more, rfl, ht⟩ := exists_of_isNext hoperand
  rw [takeExpression_operand ht] at h
  obtain ⟨before, rfl, hstuck⟩ := extendExpression_stuck (Expression.leftOf_leaf _ ht more) h
  refine ⟨(t, false) :: before, rfl, ?_, ?_, ?_⟩
  · obtain ⟨e, rest, hfits, hmarked⟩ := hstuck.begins
    exact ⟨e, rest, hfits, hmarked⟩
  · intro item hitem after
    rw [itemsOf_cons, List.cons_append, takeExpression_operand ht]
    exact hstuck.blocked item hitem after
  · rw [← List.singleton_append, endsInOperator_append, if_neg hstuck.before_ne_nil]
    simp [hstuck.wanted, hstuck.operator]

theorem Expression.endsInOperator_marked (e : Expression) : endsInOperator e.marked = false := by
  induction e with
  | leaf t => rfl
  | binary left operator right ihl ihr =>
      rw [marked, ← List.singleton_append, endsInOperator_append, endsInOperator_append, ihr]
      have hne : right.marked ≠ [] := by
        cases right <;> simp [marked]
      simp [hne]

end Kiln
