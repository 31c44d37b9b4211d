import Kiln.Grammar.Expression

/-!
# Parsing functions

A function is the keyword `fun`, a name, arguments in parentheses, types to return
in parentheses if there are any, and statements in braces.  A comma stands between
two arguments and between two types, but not behind the last one.
-/

namespace Kiln

/-- Takes a type name. -/
def takeTypeName (items : List Item) : Parsed TypeName :=
  let (stars, items) := takeTokens Token.isStar items
  (takeIdentifier .type items).mapValue fun base => ⟨stars, base⟩

theorem consumes_takeTypeName : Consumes takeTypeName TypeName.tokens := by
  intro items type rest h
  refine ⟨?_, by simp [TypeName.tokens]⟩
  have hstars := takeTokens_append Token.isStar items
  rw [takeTypeName, Parsed.mapValue_eq_ok_iff] at h
  obtain ⟨base, hbase, rfl⟩ := h
  rw [(consumes_takeToken _ _ hbase).1] at hstars
  simpa [TypeName.tokens] using hstars

/-- Takes the name and the type of an argument. -/
def takeNameAndType (items : List Item) : Parsed (Token × TypeName) :=
  (takeIdentifier .argumentName items).andThen fun name items =>
  (takeTypeName items).mapValue fun type => (name, type)

theorem consumes_takeNameAndType :
    Consumes takeNameAndType fun entry => entry.1 :: entry.2.tokens := by
  intro items entry rest h
  refine ⟨?_, by simp⟩
  simp only [takeNameAndType, Parsed.andThen_eq_ok_iff, Parsed.mapValue_eq_ok_iff] at h
  obtain ⟨name, after, hname, type, htype, rfl⟩ := h
  rw [(consumes_takeToken _ _ hname).1, (consumes_takeTypeName htype).1]
  simp

/-- Takes elements up to a closing parenthesis, which is left. -/
def takeParenthesized {α : Type} (element : List Item → Parsed α)
    (shrinks : ∀ ⦃items : List Item⦄ ⦃a : α⦄ ⦃rest : List Item⦄,
      element items = .ok (a, rest) → rest.length < items.length)
    (items : List Item) : Parsed (List (α × Option Token)) :=
  if beginsWith (Token.isPunctuation .rightParen) items then .ok ([], items)
  else takeListed (fun _ => true) element shrinks items

theorem takeParenthesized_append {α : Type} {element : List Item → Parsed α}
    {tokens : α → List Token} (consumes : Consumes element tokens) {items rest : List Item}
    {listed : List (α × Option Token)}
    (h : takeParenthesized element consumes.length_lt items = .ok (listed, rest)) :
    items = (listedTokens tokens listed).map .token ++ rest := by
  unfold takeParenthesized at h
  split at h
  · cases h
    rfl
  · exact takeListed_append consumes h

/-- Takes the arguments of a function. -/
def takeArguments (items : List Item) : Parsed (List Argument) :=
  (takeParenthesized takeNameAndType consumes_takeNameAndType.length_lt items).mapValue
    fun listed => listed.map fun ((name, type), comma) => ⟨name, type, comma⟩

theorem takeArguments_append {items rest : List Item} {arguments : List Argument}
    (h : takeArguments items = .ok (arguments, rest)) :
    items = (arguments.flatMap Argument.tokens).map .token ++ rest := by
  rw [takeArguments, Parsed.mapValue_eq_ok_iff] at h
  obtain ⟨listed, hlisted, rfl⟩ := h
  rw [takeParenthesized_append consumes_takeNameAndType hlisted]
  simp [listedTokens, Argument.tokens, List.flatMap_map]

/-- Takes the types that a function returns. -/
def takeReturnTypes (items : List Item) : Parsed ReturnTypes :=
  (takePunctuation .leftParen items).andThen fun opener items =>
  (takeParenthesized takeTypeName consumes_takeTypeName.length_lt items).andThen
    fun listed items =>
  (takePunctuation .rightParen items).mapValue fun closer =>
    ⟨opener, listed.map fun (type, comma) => ⟨type, comma⟩, closer⟩

theorem takeReturnTypes_append {items rest : List Item} {types : ReturnTypes}
    (h : takeReturnTypes items = .ok (types, rest)) :
    items = types.tokens.map .token ++ rest := by
  simp only [takeReturnTypes, Parsed.andThen_eq_ok_iff, Parsed.mapValue_eq_ok_iff] at h
  obtain ⟨opener, items₁, hopener, listed, items₂, hlisted, closer, hcloser, rfl⟩ := h
  rw [(consumes_takeToken _ _ hopener).1,
    takeParenthesized_append consumes_takeTypeName hlisted, (consumes_takeToken _ _ hcloser).1]
  simp [ReturnTypes.tokens, ReturnType.tokens, listedTokens, List.flatMap_map]

/-- Takes the types that a function returns, if an opening parenthesis is next. -/
def takeReturnTypes? (items : List Item) : Parsed (Option ReturnTypes) :=
  if beginsWith (Token.isPunctuation .leftParen) items then
    (takeReturnTypes items).mapValue some
  else .ok (none, items)

theorem takeReturnTypes?_append {items rest : List Item} {types : Option ReturnTypes}
    (h : takeReturnTypes? items = .ok (types, rest)) :
    items = (types.toList.flatMap ReturnTypes.tokens).map .token ++ rest := by
  unfold takeReturnTypes? at h
  split at h
  · rw [Parsed.mapValue_eq_ok_iff] at h
    obtain ⟨types, htypes, rfl⟩ := h
    simpa using takeReturnTypes_append htypes
  · cases h
    rfl

/-- Takes a statement. -/
def takeStatement (items : List Item) : Parsed ReturnStatement :=
  (takeToken .statement (Token.isKeyword .yield) items).andThen fun keyword items =>
  (takeValues items).mapValue fun values => ⟨keyword, values⟩

theorem consumes_takeStatement : Consumes takeStatement ReturnStatement.tokens := by
  intro items s rest h
  refine ⟨?_, by simp [ReturnStatement.tokens]⟩
  simp only [takeStatement, Parsed.andThen_eq_ok_iff, Parsed.mapValue_eq_ok_iff] at h
  obtain ⟨keyword, after, hkeyword, values, hvalues, rfl⟩ := h
  rw [(consumes_takeToken _ _ hkeyword).1, takeValues_append hvalues]
  simp [ReturnStatement.tokens]

/-- Takes statements up to a closing brace, which is left. -/
def takeStatements (items : List Item) : Parsed (List ReturnStatement) :=
  if beginsWith (Token.isPunctuation .rightBrace) items then .ok ([], items)
  else
    match _hstatement : takeStatement items with
    | .error fault => .error fault
    | .ok (s, rest) => (takeStatements rest).mapValue (s :: ·)
termination_by items.length
decreasing_by exact consumes_takeStatement.length_lt _hstatement

theorem takeStatements_append {items rest : List Item} {statements : List ReturnStatement}
    (h : takeStatements items = .ok (statements, rest)) :
    items = (statements.flatMap ReturnStatement.tokens).map .token ++ rest := by
  induction hlen : items.length using Nat.strongRecOn generalizing items statements rest with
  | ind n ih =>
    unfold takeStatements at h
    split at h
    · cases h
      rfl
    · split at h
      · cases h
      · next s after hs =>
        rw [Parsed.mapValue_eq_ok_iff] at h
        obtain ⟨ss, hss, rfl⟩ := h
        rw [(consumes_takeStatement hs).1,
          ih _ (hlen ▸ consumes_takeStatement.length_lt hs) hss rfl]
        simp

/-- Takes a function. -/
def takeFunction (items : List Item) : Parsed FunctionDecl :=
  (takeToken (.keyword .function) (Token.isKeyword .function) items).andThen fun keyword items =>
  (takeIdentifier .functionName items).andThen fun name items =>
  (takePunctuation .leftParen items).andThen fun openParen items =>
  (takeArguments items).andThen fun arguments items =>
  (takePunctuation .rightParen items).andThen fun closeParen items =>
  (takeReturnTypes? items).andThen fun returns items =>
  (takePunctuation .leftBrace items).andThen fun openBrace items =>
  (takeStatements items).andThen fun statements items =>
  (takePunctuation .rightBrace items).mapValue fun closeBrace =>
    { keyword, name, openParen, arguments, closeParen, returns, openBrace, statements, closeBrace }

theorem consumes_takeFunction : Consumes takeFunction FunctionDecl.tokens := by
  intro items f rest h
  refine ⟨?_, by simp [FunctionDecl.tokens]⟩
  simp only [takeFunction, Parsed.andThen_eq_ok_iff, Parsed.mapValue_eq_ok_iff] at h
  obtain ⟨keyword, items₁, h₁, name, items₂, h₂, openParen, items₃, h₃, arguments, items₄, h₄,
    closeParen, items₅, h₅, returns, items₆, h₆, openBrace, items₇, h₇, statements, items₈, h₈,
    closeBrace, h₉, rfl⟩ := h
  rw [(consumes_takeToken _ _ h₁).1, (consumes_takeToken _ _ h₂).1, (consumes_takeToken _ _ h₃).1,
    takeArguments_append h₄, (consumes_takeToken _ _ h₅).1, takeReturnTypes?_append h₆,
    (consumes_takeToken _ _ h₇).1, takeStatements_append h₈, (consumes_takeToken _ _ h₉).1]
  simp [FunctionDecl.tokens]

end Kiln
