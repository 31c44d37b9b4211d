import Kiln.Proofs.Grammar.Documents
import Kiln.Proofs.Relocation.Trees

/-!
# Parsing items on other lines

A parser looks at the kinds of tokens and never at where they stand.  So items on other
lines are parsed as they are on their own: into the same tree on these lines, or with the
same fault at the same item.
-/

namespace Kiln

/-- A fault in items on other lines. -/
def SyntaxFault.mapLines (f : Line → Line) (fault : SyntaxFault) : SyntaxFault :=
  ⟨fault.wanted, fault.rest.map (Item.mapLines f)⟩

section

variable {α β : Type} {f : Line → Line}

/-- What a parser gives, on other lines. -/
def Parsed.mapLines (f : Line → Line) (move : α → α) : Parsed α → Parsed α
  | .ok (a, rest) => .ok (move a, rest.map (Item.mapLines f))
  | .error fault => .error (fault.mapLines f)

/-- A parser goes along with the lines on which its items are shown. -/
def Follows (f : Line → Line) (parser : List Item → Parsed α) (move : α → α) : Prop :=
  ∀ input, parser (input.map (Item.mapLines f)) = (parser input).mapLines f move

theorem isNext_map {accept : Token → Bool} (h : ∀ t, accept (mapLines f t) = accept t)
    (input : List Item) :
    isNext accept (input.map (Item.mapLines f)).head? = isNext accept input.head? := by
  cases input with
  | nil => rfl
  | cons item input =>
      cases item with
      | token t => exact h t
      | directive d => rfl

/-! ## Tokens and sequences -/

theorem follows_takeToken {accept : Token → Bool} (h : ∀ t, accept (mapLines f t) = accept t)
    (wanted : Wanted) : Follows f (takeToken wanted accept) (mapLines f) := by
  intro input
  cases input with
  | nil => rfl
  | cons item input =>
      cases item with
      | directive d => rfl
      | token t =>
          by_cases ht : accept t = true
          · simp [takeToken, Item.mapLines, Parsed.mapLines, h, ht]
          · simp [takeToken, Item.mapLines, Parsed.mapLines, SyntaxFault.mapLines, h, ht]

theorem follows_takePunctuation (f : Line → Line) (p : Punctuation) :
    Follows f (takePunctuation p) (mapLines f) :=
  follows_takeToken (fun _ => rfl) _

theorem follows_takeIdentifier (f : Line → Line) (wanted : Wanted) :
    Follows f (takeIdentifier wanted) (mapLines f) :=
  follows_takeToken (fun _ => rfl) _

theorem takeTokens_map {accept : Token → Bool} (h : ∀ t, accept (mapLines f t) = accept t)
    (input : List Item) :
    takeTokens accept (input.map (Item.mapLines f)) =
      ((takeTokens accept input).1.map (mapLines f),
        (takeTokens accept input).2.map (Item.mapLines f)) := by
  induction input with
  | nil => rfl
  | cons item input ih =>
      cases item with
      | directive d => rfl
      | token t => by_cases ht : accept t = true <;> simp [takeTokens, Item.mapLines, h, ht, ih]

variable {parser : List Item → Parsed α} {parser' : List Item → Parsed β} {move : α → α}
  {move' : β → β}

theorem Parsed.andThen_mapLines {parsed : Parsed α} {next next' : α → List Item → Parsed β}
    (h : ∀ a rest, parsed = .ok (a, rest) →
      next (move a) (rest.map (Item.mapLines f)) = (next' a rest).mapLines f move') :
    (parsed.mapLines f move).andThen next = (parsed.andThen next').mapLines f move' := by
  cases parsed with
  | error fault => rfl
  | ok r => exact h r.1 r.2 rfl

theorem Parsed.mapValue_mapLines {g g' : α → β} (hg : ∀ a, g (move a) = move' (g' a))
    (parsed : Parsed α) :
    (parsed.mapLines f move).mapValue g = (parsed.mapValue g').mapLines f move' := by
  refine andThen_mapLines fun a rest _ => ?_
  rw [hg]
  rfl

theorem Follows.mapValue (h : Follows f parser move) {g : α → β}
    (hg : ∀ a, g (move a) = move' (g a)) :
    Follows f (fun input => (parser input).mapValue g) move' := by
  intro input
  dsimp only
  rw [h, Parsed.mapValue_mapLines hg]

theorem Follows.both (h : Follows f parser move) (h' : Follows f parser' move') :
    Follows f (Parsed.both parser parser') (Prod.map move move') := by
  intro input
  rw [Parsed.both, h]
  refine Parsed.andThen_mapLines fun a rest _ => ?_
  rw [h']
  exact Parsed.mapValue_mapLines (fun _ => by rfl) _

/-! ## Lists -/

/-- A listed element on other lines. -/
def moveEntry (f : Line → Line) (move : α → α) : α × Option Token → α × Option Token :=
  Prod.map move (Option.map (mapLines f))

section Listed

variable {goesOn : List Item → Bool} {element : List Item → Parsed α}
  {shrinks : ∀ ⦃items : List Item⦄ ⦃a : α⦄ ⦃rest : List Item⦄,
    element items = .ok (a, rest) → rest.length < items.length}

/-- A list goes along if its elements do. -/
theorem Follows.listed (h : Follows f element move)
    (hgo : ∀ input, goesOn (input.map (Item.mapLines f)) = goesOn input) :
    Follows f (takeListed goesOn element shrinks) (List.map (moveEntry f move)) := by
  intro input
  induction input using takeListed_induct goesOn shrinks with
  | stop input hgoes =>
      rw [takeListed_stop hgoes, takeListed_stop ((hgo input).trans hgoes)]
      rfl
  | failed input fault hgoes ha =>
      have hmoved := h input
      rw [ha] at hmoved
      rw [takeListed_error hgoes ha, takeListed_error ((hgo input).trans hgoes) hmoved]
      rfl
  | last input a after hgoes ha hcomma =>
      have hmoved := h input
      rw [ha] at hmoved
      rw [takeListed_last hgoes ha hcomma, takeListed_last ((hgo input).trans hgoes) hmoved]
      · rfl
      · rw [isNext_map (fun _ => rfl), hcomma]
  | comma input a c after hgoes ha hc ih =>
      have hmoved := h input
      rw [ha] at hmoved
      rw [takeListed_comma hgoes ha hc, takeListed_comma ((hgo input).trans hgoes) hmoved hc, ih]
      exact Parsed.mapValue_mapLines (fun _ => by rfl) _

theorem Follows.parenthesized (h : Follows f element move) :
    Follows f (takeParenthesized element shrinks) (List.map (moveEntry f move)) := by
  intro input
  have hnext : isNext (Token.isPunctuation .rightParen) (input.map (Item.mapLines f)).head? =
      isNext (Token.isPunctuation .rightParen) input.head? := isNext_map (fun _ => rfl) input
  cases hcloser : isNext (Token.isPunctuation .rightParen) input.head? with
  | true =>
      rw [hcloser] at hnext
      rw [Phrase.takeParenthesized_of_isNext hcloser, Phrase.takeParenthesized_of_isNext hnext]
      rfl
  | false =>
      rw [hcloser] at hnext
      rw [Phrase.takeParenthesized_of_not_isNext hcloser,
        Phrase.takeParenthesized_of_not_isNext hnext]
      exact h.listed (fun _ => rfl) input

end Listed

/-! ## Expressions -/

theorem operatorAhead?_map (f : Line → Line) (minimum : Nat) (input : List Item) :
    operatorAhead? minimum (input.map (Item.mapLines f)) = operatorAhead? minimum input := by
  cases input with
  | nil => rfl
  | cons item input => cases item <;> rfl

/-- The operand that is extended is shown on other lines as well. -/
theorem extendExpression_map (f : Line → Line) (minimum : Nat) (left : Expression)
    (input : List Item) :
    extendExpression minimum (mapLines f left) (input.map (Item.mapLines f)) =
      (extendExpression minimum left input).mapLines f (mapLines f) := by
  induction minimum, left, input using extendExpression_induct with
  | stop minimum left input hahead =>
      rw [extendExpression_stop hahead,
        extendExpression_stop ((operatorAhead?_map f _ _).trans hahead)]
      rfl
  | unfinished minimum left precedence t after hahead hoperand =>
      have hmoved := (operatorAhead?_map f _ _).trans hahead
      have hnext : isNext Token.isOperand (after.map (Item.mapLines f)).head? = false := by
        rw [isNext_map (fun _ => rfl), hoperand]
      rw [extendExpression_operator hahead, takeExpression_of_not_operand hoperand]
      refine (extendExpression_operator hmoved (mapLines f left)).trans ?_
      rw [takeExpression_of_not_operand hnext]
      rfl
  | step minimum left precedence t s more hahead hs ih ihstep =>
      have hmoved := (operatorAhead?_map f _ _).trans hahead
      have hright : takeExpression (precedence + 1)
          (.token (mapLines f s) :: more.map (Item.mapLines f)) =
          (extendExpression (precedence + 1) (.leaf s) more).mapLines f (mapLines f) :=
        (takeExpression_operand (t := mapLines f s) hs).trans ih
      rw [extendExpression_operator hahead, takeExpression_operand hs]
      refine (extendExpression_operator hmoved (mapLines f left)).trans ?_
      rw [List.map_cons, Item.mapLines, hright]
      exact Parsed.andThen_mapLines ihstep

theorem follows_takeExpression (f : Line → Line) (minimum : Nat) :
    Follows f (takeExpression minimum) (mapLines f) := by
  intro input
  have hnext : isNext Token.isOperand (input.map (Item.mapLines f)).head? =
      isNext Token.isOperand input.head? := isNext_map (fun _ => rfl) input
  cases hoperand : isNext Token.isOperand input.head? with
  | true =>
      obtain ⟨t, more, rfl, ht⟩ := exists_of_isNext hoperand
      rw [takeExpression_operand ht]
      exact (takeExpression_operand (t := mapLines f t) ht).trans
        (extendExpression_map f minimum (.leaf t) more)
  | false =>
      rw [takeExpression_of_not_operand hoperand,
        takeExpression_of_not_operand (hnext.trans hoperand)]
      rfl

theorem follows_takeValues (f : Line → Line) : Follows f takeValues (mapLines f) := by
  refine ((follows_takeExpression f lowestPrecedence).listed ?_).mapValue ?_
  · intro input
    rw [beginsWith_eq_isNext, beginsWith_eq_isNext, isNext_map (fun _ => rfl)]
  · intro listed
    simp [mapLines, moveEntry, Function.comp_def]

/-! ## Functions -/

theorem follows_takeTypeName (f : Line → Line) : Follows f takeTypeName (mapLines f) := by
  intro input
  rw [takeTypeName, takeTypeName, takeTokens_map (fun _ => rfl)]
  dsimp only
  rw [follows_takeIdentifier]
  exact Parsed.mapValue_mapLines (fun _ => by rfl) _

theorem follows_takeNameAndType (f : Line → Line) :
    Follows f takeNameAndType (Prod.map (mapLines f) (mapLines f)) :=
  (follows_takeIdentifier f .argumentName).both (follows_takeTypeName f)

theorem follows_takeArguments (f : Line → Line) :
    Follows f takeArguments (List.map (mapLines f)) := by
  refine (follows_takeNameAndType f).parenthesized.mapValue ?_
  intro listed
  simp [mapLines, moveEntry, Function.comp_def]

theorem follows_takeReturnTypes (f : Line → Line) :
    Follows f takeReturnTypes (mapLines f) := by
  intro input
  rw [takeReturnTypes, follows_takePunctuation]
  refine Parsed.andThen_mapLines fun opener rest _ => ?_
  rw [(follows_takeTypeName f).parenthesized]
  refine Parsed.andThen_mapLines fun listed rest _ => ?_
  rw [follows_takePunctuation]
  refine Parsed.mapValue_mapLines (fun closer => ?_) _
  simp [mapLines, moveEntry, Function.comp_def]

theorem follows_takeReturnTypes? (f : Line → Line) :
    Follows f takeReturnTypes? (Option.map (mapLines f)) := by
  intro input
  have hnext : isNext (Token.isPunctuation .leftParen) (input.map (Item.mapLines f)).head? =
      isNext (Token.isPunctuation .leftParen) input.head? := isNext_map (fun _ => rfl) input
  cases hopener : isNext (Token.isPunctuation .leftParen) input.head? with
  | true =>
      rw [Phrase.takeReturnTypes?_of_isNext hopener,
        Phrase.takeReturnTypes?_of_isNext (hnext.trans hopener), follows_takeReturnTypes]
      exact Parsed.mapValue_mapLines (fun _ => by rfl) _
  | false =>
      rw [Phrase.takeReturnTypes?_of_not_isNext hopener,
        Phrase.takeReturnTypes?_of_not_isNext (hnext.trans hopener)]
      rfl

theorem follows_takeStatement (f : Line → Line) : Follows f takeStatement (mapLines f) := by
  intro input
  rw [takeStatement, follows_takeToken (fun _ => rfl)]
  refine Parsed.andThen_mapLines fun keyword rest _ => ?_
  rw [follows_takeValues]
  exact Parsed.mapValue_mapLines (fun _ => by rfl) _

theorem follows_takeStatements (f : Line → Line) :
    Follows f takeStatements (List.map (mapLines f)) := by
  intro input
  have hnext : ∀ input : List Item,
      isNext (Token.isPunctuation .rightBrace) (input.map (Item.mapLines f)).head? =
        isNext (Token.isPunctuation .rightBrace) input.head? := isNext_map fun _ => rfl
  induction input using Phrase.takeStatements_induct with
  | stop input hcloser =>
      rw [Phrase.takeStatements_of_isNext hcloser,
        Phrase.takeStatements_of_isNext ((hnext input).trans hcloser)]
      rfl
  | failed input fault hcloser hs =>
      rw [Phrase.takeStatements_of_not_isNext hcloser, hs,
        Phrase.takeStatements_of_not_isNext ((hnext input).trans hcloser),
        follows_takeStatement, hs]
      rfl
  | step input s rest hcloser hs ih =>
      rw [Phrase.takeStatements_of_not_isNext hcloser, hs,
        Phrase.takeStatements_of_not_isNext ((hnext input).trans hcloser),
        follows_takeStatement, hs]
      show (takeStatements (rest.map (Item.mapLines f))).mapValue _ = _
      rw [ih]
      exact Parsed.mapValue_mapLines (fun _ => by rfl) _

theorem follows_takeFunctionParts (f : Line → Line) :
    Follows f Phrase.takeFunctionParts (Prod.map (mapLines f) <| Prod.map (mapLines f) <|
      Prod.map (mapLines f) <| Prod.map (List.map (mapLines f)) <| Prod.map (mapLines f) <|
      Prod.map (Option.map (mapLines f)) <| Prod.map (mapLines f) <|
      Prod.map (List.map (mapLines f)) (mapLines f)) :=
  (follows_takeToken (fun _ => rfl) _).both <| (follows_takeIdentifier f _).both <|
  (follows_takePunctuation f _).both <| (follows_takeArguments f).both <|
  (follows_takePunctuation f _).both <| (follows_takeReturnTypes? f).both <|
  (follows_takePunctuation f _).both <| (follows_takeStatements f).both
    (follows_takePunctuation f _)

/-- A function is read on other lines as it is on its own. -/
theorem follows_takeFunction (f : Line → Line) : Follows f takeFunction (mapLines f) := by
  intro input
  rw [Phrase.takeFunction_eq, Phrase.takeFunction_eq, follows_takeFunctionParts]
  exact Parsed.mapValue_mapLines (fun _ => by rfl) _

/-! ## Documents -/

/-- Declarations are read on other lines as they are on their own, and a fault in them is
found at the same item. -/
theorem takeDeclarations_map (f : Line → Line) (items : List Item) :
    takeDeclarations (items.map (Item.mapLines f)) =
      ((takeDeclarations items).map (List.map (mapLines f))).mapError
        (SyntaxFault.mapLines f) := by
  induction items using takeDeclarations_induct with
  | nil => rw [List.map_nil, takeDeclarations_nil]; rfl
  | directive d rest ih =>
      rw [takeDeclarations_directive]
      refine (takeDeclarations_directive _ _).trans ?_
      rw [ih]
      cases takeDeclarations rest <;> rfl
  | foreign t rest ht =>
      rw [takeDeclarations_foreign ht]
      exact takeDeclarations_foreign (t := mapLines f t) ht _
  | failed t rest fault ht hf =>
      have hmoved := follows_takeFunction f (.token t :: rest)
      rw [hf] at hmoved
      rw [takeDeclarations_error ht hf]
      exact takeDeclarations_error (t := mapLines f t) ht hmoved
  | function t rest d after ht hf ih =>
      have hmoved := follows_takeFunction f (.token t :: rest)
      rw [hf] at hmoved
      rw [takeDeclarations_function ht hf]
      refine (takeDeclarations_function (t := mapLines f t) ht hmoved).trans ?_
      rw [ih]
      cases takeDeclarations after <;> rfl

end
end Kiln
