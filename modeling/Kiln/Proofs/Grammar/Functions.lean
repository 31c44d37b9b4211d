import Kiln.Proofs.Grammar.Climbing
import Kiln.Proofs.Grammar.Signatures

/-!
# Reading functions

Statements up to a closing brace, and whole functions.  A list of values is over
where neither a comma nor an operator nor an operand follows, which is why the next
statement or the closing brace ends it.
-/

namespace Kiln
namespace Phrase

/-! ## Optional return types -/

/-- The return types of a function, or nothing. -/
def returnTypes? : Phrase (Option ReturnTypes) where
  Fits types? := ∀ types ∈ types?, types.Grammatical
  marked types? := unmarked (types?.toList.flatMap ReturnTypes.tokens)
  EndsBefore
    | none, next => isNext (Token.isPunctuation .leftParen) next = false
    | some _, _ => True

theorem takeReturnTypes?_of_isNext {input : List Item}
    (h : isNext (Token.isPunctuation .leftParen) input.head? = true) :
    takeReturnTypes? input = (takeReturnTypes input).mapValue some := by
  rw [takeReturnTypes?, beginsWith_eq_isNext, if_pos h]

theorem takeReturnTypes?_of_not_isNext {input : List Item}
    (h : isNext (Token.isPunctuation .leftParen) input.head? = false) :
    takeReturnTypes? input = .ok (none, input) := by
  rw [takeReturnTypes?, beginsWith_eq_isNext, if_neg (by simp [h])]

theorem acceptedBy_takeReturnTypes? : returnTypes?.AcceptedBy takeReturnTypes? := by
  intro input types? rest
  constructor
  · intro h
    cases hnext : isNext (Token.isPunctuation .leftParen) input.head? with
    | false =>
        rw [takeReturnTypes?_of_not_isNext hnext] at h
        cases h
        exact ⟨by simp [returnTypes?], hnext, rfl⟩
    | true =>
        rw [takeReturnTypes?_of_isNext hnext, Parsed.mapValue_eq_ok_iff] at h
        obtain ⟨types, htypes, rfl⟩ := h
        obtain ⟨hfits, -, hinput⟩ := (readBy_takeReturnTypes.accepted _ _ _).1 htypes
        refine ⟨?_, trivial, ?_⟩
        · rintro types' ⟨⟩
          exact hfits
        · simpa [items, returnTypes?, returnTypes] using hinput
  · rintro ⟨hfits, hends, rfl⟩
    cases types? with
    | none => exact takeReturnTypes?_of_not_isNext hends
    | some types =>
        have htypes := hfits types rfl
        have hnext : isNext (Token.isPunctuation .leftParen)
            (returnTypes?.items (some types) ++ rest).head? = true := by
          simpa [items, returnTypes?, ReturnTypes.tokens] using htypes.opener
        rw [takeReturnTypes?_of_isNext hnext, Parsed.mapValue_eq_ok_iff]
        refine ⟨types, (readBy_takeReturnTypes.accepted _ _ _).2 ⟨htypes, trivial, ?_⟩, rfl⟩
        simp [items, returnTypes?, returnTypes]

theorem readBy_takeReturnTypes? : returnTypes?.ReadBy takeReturnTypes? := by
  refine ⟨acceptedBy_takeReturnTypes?, ?_, fun types? _ => endsInOperator_unmarked _⟩
  intro input fault h
  cases hnext : isNext (Token.isPunctuation .leftParen) input.head? with
  | false =>
      rw [takeReturnTypes?_of_not_isNext hnext] at h
      cases h
  | true =>
      rw [takeReturnTypes?_of_isNext hnext, Parsed.mapValue_eq_error_iff] at h
      obtain ⟨before, hinput, ⟨types, more, hfits, hmarked⟩, hblocked, hwanted⟩ :=
        readBy_takeReturnTypes.stuck input fault h
      refine ⟨before, hinput, ⟨some types, more, ?_, ?_⟩, ?_, hwanted⟩
      · rintro types' ⟨⟩
        exact hfits
      · simpa [returnTypes?, returnTypes] using hmarked
      · intro item hitem after
        have hhead : fault.rest.head? = (item :: after).head? := hitem
        rw [takeReturnTypes?_of_isNext, hblocked item hitem after]
        · rfl
        · rw [← head?_append_congr hhead, ← hinput, hnext]

/-! ## Statements -/

/-- A returned value as a listed element. -/
def valueEntry (v : ListedValue) : Expression × Option Token := (v.expression, v.comma)

/-- Lists of values, of which the last may have a comma. -/
def valueEntries : Phrase (List (Expression × Option Token)) :=
  (expression lowestPrecedence).listed true (isNext Token.isOperand)

/-- Lists of values in the form of the tree. -/
def values : Phrase ValueList where
  Fits vs := (∀ v ∈ vs.values, v.expression.Grammatical) ∧
    CommasFit true (vs.values.map ListedValue.comma)
  marked vs := vs.values.flatMap ListedValue.marked
  EndsBefore vs := valueEntries.EndsBefore (vs.values.map valueEntry)

/-- Statements. -/
def statement : Phrase ReturnStatement where
  Fits := ReturnStatement.Grammatical
  marked := ReturnStatement.marked
  EndsBefore s := values.EndsBefore s.values

theorem lowestPrecedence_le {o : Operator} {precedence : Nat}
    (h : o.precedence? = some precedence) : lowestPrecedence ≤ precedence := by
  unfold lowestPrecedence
  cases o <;> simp only [Operator.precedence?, reduceCtorEq, Option.some.injEq] at h <;> omega

/-- Every expression holds together against the least tight operator. -/
theorem bindsFrom_lowestPrecedence (e : Expression) : e.BindsFrom lowestPrecedence := by
  intro precedence h
  cases e with
  | leaf t => cases h
  | binary left operator right =>
      rw [Expression.precedence?, Option.mem_def] at h
      cases hkind : operator.kind with
      | operator o =>
          rw [hkind] at h
          exact lowestPrecedence_le h
      | _ =>
          rw [hkind] at h
          cases h

theorem fits_expression_lowest_iff (e : Expression) :
    (expression lowestPrecedence).Fits e ↔ e.Grammatical :=
  and_iff_left (bindsFrom_lowestPrecedence e)

theorem begins_expression {e : Expression} (he : e.Grammatical) (minimum : Nat)
    (rest : List Item) :
    isNext Token.isOperand ((expression minimum).items e ++ rest).head? = true := by
  induction e generalizing rest with
  | leaf t => exact he
  | binary left operator right ihl _ =>
      have hitems : (expression minimum).items (.binary left operator right) =
          (expression minimum).items left ++ itemsOf ((operator, true) :: right.marked) :=
        itemsOf_append _ _
      rw [hitems, List.append_assoc]
      exact ihl he.1 _

theorem separable_expression :
    (expression lowestPrecedence).Separable true (isNext Token.isOperand) := by
  refine ⟨fun hfits => begins_expression hfits.1 _ _, fun _ => rfl, ?_⟩
  intro e comma _ hcomma
  simp only [Token.isPunctuation, beq_iff_eq] at hcomma
  simp [expression, Token.joinsFrom, hcomma, Kind.precedence?]

theorem readBy_takeValues : values.ReadBy takeValues := by
  have hread : valueEntries.ReadBy
      (takeListed (beginsWith Token.isOperand) (takeExpression lowestPrecedence)
        (consumes_takeExpression lowestPrecedence).length_lt) := by
    refine (acceptedBy_takeExpression lowestPrecedence).readBy_listed ?_ ?_
      separable_expression (beginsWith_eq_isNext Token.isOperand)
    · intro input hinput
      rw [beginsWith_eq_isNext] at hinput
      exact rightlyStuck_takeExpression hinput
    · intro e _
      exact e.endsInOperator_marked
  refine hread.mapValue (g := fun vs => vs.values.map valueEntry) ⟨?_, ?_, ?_, ?_, ?_⟩
  · intro listed
    simp [valueEntry, List.map_map, Function.comp_def]
  · intro vs
    simp [valueEntry, List.map_map, Function.comp_def]
  · intro listed
    simp only [values, valueEntries, Phrase.listed, listedFit_iff, List.forall_mem_map,
      List.map_map, fits_expression_lowest_iff, implies_true, and_true]
    rfl
  · intro listed
    simp [values, valueEntries, Phrase.listed, listedMarked, List.flatMap_map, ListedValue.marked,
      expression]
  · intro listed next
    simp [values, valueEntry, List.map_map, Function.comp_def]

theorem readBy_takeStatement : statement.ReadBy takeStatement := by
  have hkeyword : (token (Token.isKeyword .yield)).ReadBy
      (takeToken .statement (Token.isKeyword .yield)) :=
    readBy_takeToken (by simp) (exists_isKeyword .yield)
  have hread := hkeyword.both readBy_takeValues (endsBeforePhrase_token _ _)
    ⟨⟨[]⟩, by simp, commasFit_nil true⟩
  let build : Token × ValueList → ReturnStatement := fun r => ⟨r.1, r.2⟩
  let parts : ReturnStatement → Token × ValueList := fun s => (s.keyword, s.values)
  have heq : takeStatement = fun input =>
      (Parsed.both (takeToken .statement (Token.isKeyword .yield)) takeValues
        input).mapValue build := by
    funext input
    rw [Parsed.mapValue_both]
    rfl
  rw [heq]
  refine hread.mapValue (g := parts)
    ⟨fun _ => rfl, fun _ => rfl, ?_, fun _ => rfl, fun _ _ => Iff.rfl⟩
  intro r
  exact ⟨fun h => ⟨h.keyword, h.values, h.commas⟩, fun h => ⟨h.1, h.2.1, h.2.2⟩⟩

/-- Statements up to a closing brace. -/
def statements : Phrase (List ReturnStatement) where
  Fits ss := ∀ s ∈ ss, s.Grammatical
  marked ss := ss.flatMap ReturnStatement.marked
  EndsBefore _ next := isNext (Token.isPunctuation .rightBrace) next = true

/-- A list of values is over in front of anything but a comma, an operand and an
operator between operands. -/
theorem endsBefore_valueEntries {next : Option Item}
    (hcomma : isNext (Token.isPunctuation .comma) next = false)
    (hoperand : isNext Token.isOperand next = false)
    (hoperator : isNext (Token.joinsFrom lowestPrecedence) next = false)
    (listed : List (Expression × Option Token)) : valueEntries.EndsBefore listed next := by
  induction listed with
  | nil => exact hoperand
  | cons entry listed ih =>
      obtain ⟨e, comma⟩ := entry
      cases comma with
      | none => exact ⟨hoperator, hcomma⟩
      | some comma => exact ih

theorem endsBefore_statement_of_keyword {t : Token} (ht : t.isKeyword .yield)
    (s : ReturnStatement) : statement.EndsBefore s (some (.token t)) := by
  simp only [Token.isKeyword, beq_iff_eq] at ht
  apply endsBefore_valueEntries
  · simp [Token.isPunctuation, ht]
  · simp [Token.isOperand, Kind.isOperand, ht]
  · simp [Token.joinsFrom, Kind.precedence?, ht]

theorem endsBefore_statement_of_punctuation {t : Token} (ht : t.isPunctuation .rightBrace)
    (s : ReturnStatement) : statement.EndsBefore s (some (.token t)) := by
  simp only [Token.isPunctuation, beq_iff_eq] at ht
  apply endsBefore_valueEntries
  · simp [Token.isPunctuation, ht]
  · simp [Token.isOperand, Kind.isOperand, ht]
  · simp [Token.joinsFrom, Kind.precedence?, ht]

theorem takeStatements_of_isNext {input : List Item}
    (h : isNext (Token.isPunctuation .rightBrace) input.head? = true) :
    takeStatements input = .ok ([], input) := by
  rw [takeStatements, beginsWith_eq_isNext, if_pos h]

theorem takeStatements_of_not_isNext {input : List Item}
    (h : isNext (Token.isPunctuation .rightBrace) input.head? = false) :
    takeStatements input =
      (takeStatement input).andThen fun s rest => (takeStatements rest).mapValue (s :: ·) := by
  rw [takeStatements, beginsWith_eq_isNext, if_neg (by simp [h])]
  split
  · next hs => rw [hs]; rfl
  · next hs => rw [hs]; rfl

/-- Induction along statements: a closing brace is next, a statement fails, or one
is read and more follow. -/
theorem takeStatements_induct {motive : List Item → Prop}
    (stop : ∀ input, isNext (Token.isPunctuation .rightBrace) input.head? = true → motive input)
    (failed : ∀ input fault, isNext (Token.isPunctuation .rightBrace) input.head? = false →
      takeStatement input = .error fault → motive input)
    (step : ∀ input s rest, isNext (Token.isPunctuation .rightBrace) input.head? = false →
      takeStatement input = .ok (s, rest) → motive rest → motive input)
    (input : List Item) : motive input := by
  induction hlen : input.length using Nat.strongRecOn generalizing input with
  | ind n ih =>
      cases hnext : isNext (Token.isPunctuation .rightBrace) input.head? with
      | true => exact stop input hnext
      | false =>
          cases hs : takeStatement input with
          | error fault => exact failed input fault hnext hs
          | ok r =>
              have hlt := consumes_takeStatement.length_lt hs
              exact step input r.1 r.2 hnext hs (ih _ (hlen ▸ hlt) r.2 rfl)

theorem takeStatements_sound {input rest : List Item} {ss : List ReturnStatement}
    (h : takeStatements input = .ok (ss, rest)) :
    statements.Fits ss ∧ statements.EndsBefore ss rest.head? ∧
      input = statements.items ss ++ rest := by
  induction input using takeStatements_induct generalizing ss rest with
  | stop input hnext =>
      rw [takeStatements_of_isNext hnext] at h
      cases h
      exact ⟨by simp [statements], hnext, rfl⟩
  | failed input fault hnext hs =>
      rw [takeStatements_of_not_isNext hnext, hs] at h
      cases h
  | step input s after hnext hs ih =>
      rw [takeStatements_of_not_isNext hnext, hs] at h
      simp only [Parsed.andThen, Parsed.mapValue_eq_ok_iff] at h
      obtain ⟨more, hmore, rfl⟩ := h
      obtain ⟨hfits, -, rfl⟩ := (readBy_takeStatement.accepted _ _ _).1 hs
      obtain ⟨hmfits, hends, rfl⟩ := ih hmore
      refine ⟨?_, hends, ?_⟩
      · simp only [statements, List.forall_mem_cons]
        exact ⟨hfits, hmfits⟩
      · simp [items, statements, statement]

/-- Behind a statement the next statement or the brace follows. -/
theorem endsBefore_statements {s : ReturnStatement} {ss : List ReturnStatement}
    {rest : List Item} (hfits : ∀ s' ∈ ss, s'.Grammatical)
    (hends : isNext (Token.isPunctuation .rightBrace) rest.head? = true) :
    statement.EndsBefore s (statements.items ss ++ rest).head? := by
  cases ss with
  | nil =>
      obtain ⟨t, hnext, ht⟩ := isNext_eq_true_iff.1 hends
      have hhead : (statements.items [] ++ rest).head? = some (.token t) := hnext
      rw [hhead]
      exact endsBefore_statement_of_punctuation ht s
  | cons s' ss =>
      have hkeyword := (hfits s' (by simp)).keyword
      exact endsBefore_statement_of_keyword hkeyword s

theorem takeStatements_items_append {ss : List ReturnStatement} {rest : List Item}
    (hfits : ∀ s ∈ ss, s.Grammatical)
    (hends : isNext (Token.isPunctuation .rightBrace) rest.head? = true) :
    takeStatements (statements.items ss ++ rest) = .ok (ss, rest) := by
  induction ss with
  | nil => exact takeStatements_of_isNext hends
  | cons s ss ih =>
      rw [List.forall_mem_cons] at hfits
      have hinput : statements.items (s :: ss) ++ rest =
          statement.items s ++ (statements.items ss ++ rest) := by
        simp [items, statements, statement]
      have htake : takeStatement (statement.items s ++ (statements.items ss ++ rest)) =
          .ok (s, statements.items ss ++ rest) :=
        (readBy_takeStatement.accepted _ _ _).2
          ⟨hfits.1, endsBefore_statements hfits.2 hends, rfl⟩
      have hnext : isNext (Token.isPunctuation .rightBrace)
          (statement.items s ++ (statements.items ss ++ rest)).head? = false := by
        have hkeyword := hfits.1.keyword
        simp only [Token.isKeyword, beq_iff_eq] at hkeyword
        simp [items, statement, ReturnStatement.marked, Token.isPunctuation, hkeyword]
      rw [hinput, takeStatements_of_not_isNext hnext, htake, Parsed.andThen, ih hfits.2]
      rfl

theorem acceptedBy_takeStatements : statements.AcceptedBy takeStatements := by
  intro input ss rest
  constructor
  · exact takeStatements_sound
  · rintro ⟨hfits, hends, rfl⟩
    exact takeStatements_items_append hfits hends

theorem rightlyStuck_takeStatements (input : List Item) :
    statements.RightlyStuck takeStatements input := by
  intro fault h
  induction input using takeStatements_induct with
  | stop input hnext =>
      rw [takeStatements_of_isNext hnext] at h
      cases h
  | failed input fault' hnext hs =>
      rw [takeStatements_of_not_isNext hnext, hs] at h
      cases h
      obtain ⟨before, hinput, ⟨s, more, hfits, hmarked⟩, hblocked, hwanted⟩ :=
        readBy_takeStatement.stuck input fault hs
      refine ⟨before, hinput, ⟨[s], more, ?_, ?_⟩, ?_, hwanted⟩
      · intro s' hs'
        rw [List.mem_singleton] at hs'
        exact hs' ▸ hfits
      · simpa [statements, statement] using hmarked
      · intro item hitem after
        have hhead : fault.rest.head? = (item :: after).head? := hitem
        rw [takeStatements_of_not_isNext, hblocked item hitem after]
        · rfl
        · rw [← head?_append_congr hhead, ← hinput, hnext]
  | step input s after hnext hs ih =>
      rw [takeStatements_of_not_isNext hnext, hs] at h
      simp only [Parsed.andThen, Parsed.mapValue_eq_error_iff] at h
      obtain ⟨before, rfl, ⟨ss, more, hfits, hmarked⟩, hblocked, hwanted⟩ := ih h
      obtain ⟨hsfits, -, rfl⟩ := (readBy_takeStatement.accepted _ _ _).1 hs
      refine ⟨s.marked ++ before, by simp [items, statement], ⟨s :: ss, more, ?_, ?_⟩, ?_, ?_⟩
      · simp only [statements, List.forall_mem_cons]
        exact ⟨hsfits, hfits⟩
      · simp only [statements] at hmarked
        simp [statements, hmarked]
      · intro item hitem after
        have hhead : (itemsOf before ++ fault.rest).head? =
            (itemsOf before ++ item :: after).head? :=
          head?_append_congr hitem
        have hsame := readBy_takeStatement.accepted.congr hs hhead
        have hnext' : isNext (Token.isPunctuation .rightBrace)
            (statement.items s ++ (itemsOf before ++ item :: after)).head? = false := by
          rw [← head?_append_congr hhead, hnext]
        have hinput : itemsOf (s.marked ++ before) ++ item :: after =
            statement.items s ++ (itemsOf before ++ item :: after) := by
          simp [items, statement]
        rw [hinput, takeStatements_of_not_isNext hnext', hsame, Parsed.andThen,
          Parsed.mapValue_eq_error_iff]
        exact hblocked item hitem after
      · rw [endsInOperator_append, hwanted]
        split
        · next hnil =>
            have hclosed := readBy_takeStatement.closed s hsfits
            simp only [statement] at hclosed
            simp [hnil, hclosed]
        · rfl

theorem endsInOperator_statements {ss : List ReturnStatement} (hss : statements.Fits ss) :
    endsInOperator (statements.marked ss) = false := by
  induction ss with
  | nil => rfl
  | cons s ss ih =>
      have hlast := ih fun s' hs' => hss s' (List.mem_cons_of_mem s hs')
      have hclosed := readBy_takeStatement.closed s (hss s (by simp))
      simp only [statements, statement] at hlast hclosed
      simp [statements, endsInOperator_append, hlast, hclosed]

theorem readBy_takeStatements : statements.ReadBy takeStatements where
  accepted := acceptedBy_takeStatements
  stuck := rightlyStuck_takeStatements
  closed _ := endsInOperator_statements

/-! ## Functions -/

/-- Functions. -/
def function : Phrase FunctionDecl where
  Fits := FunctionDecl.Grammatical
  marked := FunctionDecl.marked
  EndsBefore _ _ := True

/-- A phrase that is over in front of a token is over in front of anything that the
token begins. -/
theorem EndsBeforePhrase.seq {α β : Type} {p : Phrase α} {accept : Token → Bool} (q : Phrase β)
    (h : p.EndsBeforePhrase (token accept)) : p.EndsBeforePhrase ((token accept).seq q) := by
  intro a r rest ha hr _
  have hitems : ((token accept).seq q).items r ++ rest =
      (token accept).items r.1 ++ (q.items r.2 ++ rest) := by
    simp [items, Phrase.seq]
  rw [hitems]
  exact h ha hr.1 trivial

theorem exists_seq {α β : Type} {p : Phrase α} {q : Phrase β} (hp : ∃ a, p.Fits a)
    (hq : ∃ b, q.Fits b) : ∃ r, (p.seq q).Fits r := by
  obtain ⟨a, ha⟩ := hp
  obtain ⟨b, hb⟩ := hq
  exact ⟨(a, b), ha, hb⟩

/-- The arguments are over where the closing parenthesis stands. -/
theorem arguments_endsBeforePhrase :
    arguments.EndsBeforePhrase (token (Token.isPunctuation .rightParen)) := by
  intro as closer rest has hcloser hrest
  refine endsBeforePhrase_parenthesized selfDelimiting_nameAndType ?_ hcloser hrest
  constructor
  · simp only [List.forall_mem_map]
    intro a ha
    exact ⟨(has.1 a ha).name, (has.1 a ha).type⟩
  · rw [List.map_map]
    exact has.2

/-- Without return types the opening brace is next, which begins none. -/
theorem returnTypes?_endsBeforePhrase :
    returnTypes?.EndsBeforePhrase (token (Token.isPunctuation .leftBrace)) := by
  intro types? t rest _ ht _
  cases types? with
  | some types => trivial
  | none =>
      simp only [token, Token.isPunctuation, beq_iff_eq] at ht
      simp [returnTypes?, items, token, Token.isPunctuation, ht]

theorem statements_endsBeforePhrase :
    statements.EndsBeforePhrase (token (Token.isPunctuation .rightBrace)) :=
  fun _ ht _ => ht

/-- The parts of a function. -/
abbrev FunctionParts : Type :=
  Token × Token × Token × List Argument × Token × Option ReturnTypes × Token ×
    List ReturnStatement × Token

/-- A function of its parts. -/
def functionOfParts : FunctionParts → FunctionDecl
  | (keyword, name, openParen, arguments, closeParen, returns, openBrace, statements,
      closeBrace) =>
    { keyword, name, openParen, arguments, closeParen, returns, openBrace, statements, closeBrace }

/-- The parts of a function in source order. -/
def partsOfFunction (f : FunctionDecl) : FunctionParts :=
  (f.keyword, f.name, f.openParen, f.arguments, f.closeParen, f.returns, f.openBrace,
    f.statements, f.closeBrace)

/-- A function as a sequence of phrases. -/
def functionParts : Phrase FunctionParts :=
  (token (Token.isKeyword .function)).seq <| (token Token.isIdentifier).seq <|
  (token (Token.isPunctuation .leftParen)).seq <| arguments.seq <|
  (token (Token.isPunctuation .rightParen)).seq <| returnTypes?.seq <|
  (token (Token.isPunctuation .leftBrace)).seq <| statements.seq <|
  token (Token.isPunctuation .rightBrace)

/-- Takes the parts of a function. -/
def takeFunctionParts : List Item → Parsed FunctionParts :=
  .both (takeToken (.keyword .function) (Token.isKeyword .function)) <|
  .both (takeIdentifier .functionName) <| .both (takePunctuation .leftParen) <|
  .both takeArguments <| .both (takePunctuation .rightParen) <|
  .both takeReturnTypes? <| .both (takePunctuation .leftBrace) <|
  .both takeStatements (takePunctuation .rightBrace)

theorem takeFunction_eq (input : List Item) :
    takeFunction input = (takeFunctionParts input).mapValue functionOfParts := by
  simp only [takeFunctionParts, Parsed.mapValue_both]
  rfl

theorem readBy_takeFunctionParts : functionParts.ReadBy takeFunctionParts := by
  have hargs : ∃ as, arguments.Fits as := ⟨[], by simp, commasFit_nil false⟩
  have htypes : ∃ types?, returnTypes?.Fits types? := ⟨none, by simp [returnTypes?]⟩
  have hstatements : ∃ ss, statements.Fits ss := ⟨[], by simp [statements]⟩
  have hbody := readBy_takeStatements.both (readBy_takePunctuation .rightBrace)
    statements_endsBeforePhrase (exists_isPunctuation _)
  have ebody := exists_seq (q := token _) hstatements (exists_isPunctuation .rightBrace)
  have hblock := (readBy_takePunctuation .leftBrace).both hbody (endsBeforePhrase_token _ _) ebody
  have eblock := exists_seq (p := token _) (exists_isPunctuation .leftBrace) ebody
  have hreturns := readBy_takeReturnTypes?.both hblock (returnTypes?_endsBeforePhrase.seq _) eblock
  have ereturns := exists_seq htypes eblock
  have hclosed := (readBy_takePunctuation .rightParen).both hreturns
    (endsBeforePhrase_token _ _) ereturns
  have eclosed := exists_seq (p := token _) (exists_isPunctuation .rightParen) ereturns
  have harguments := readBy_takeArguments.both hclosed (arguments_endsBeforePhrase.seq _) eclosed
  have earguments := exists_seq hargs eclosed
  have hopened := (readBy_takePunctuation .leftParen).both harguments
    (endsBeforePhrase_token _ _) earguments
  have eopened := exists_seq (p := token _) (exists_isPunctuation .leftParen) earguments
  have hname : (token Token.isIdentifier).ReadBy (takeIdentifier .functionName) :=
    readBy_takeIdentifier (by simp)
  have hnamed := hname.both hopened (endsBeforePhrase_token _ _) eopened
  have enamed := exists_seq (p := token _) exists_isIdentifier eopened
  exact (readBy_takeToken (by simp) (exists_isKeyword .function)).both hnamed
    (endsBeforePhrase_token _ _) enamed

theorem readBy_takeFunction : function.ReadBy takeFunction := by
  have heq : takeFunction = fun input => (takeFunctionParts input).mapValue functionOfParts :=
    funext takeFunction_eq
  rw [heq]
  refine readBy_takeFunctionParts.mapValue (g := partsOfFunction)
    ⟨fun _ => rfl, fun _ => rfl, ?_, ?_, fun _ _ => Iff.rfl⟩
  · intro r
    constructor
    · intro h
      exact ⟨h.keyword, h.name, h.openParen, ⟨h.arguments, h.argumentCommas⟩, h.closeParen,
        h.returns, h.openBrace, h.statements, h.closeBrace⟩
    · rintro ⟨keyword, name, openParen, ⟨arguments, argumentCommas⟩, closeParen, returns,
        openBrace, statements, closeBrace⟩
      exact ⟨keyword, name, openParen, arguments, argumentCommas, closeParen, returns, openBrace,
        statements, closeBrace⟩
  · intro r
    simp [function, functionParts, functionOfParts, FunctionDecl.marked, FunctionDecl.headTokens,
      seq, token, arguments, returnTypes?, statements]

end Phrase
end Kiln
