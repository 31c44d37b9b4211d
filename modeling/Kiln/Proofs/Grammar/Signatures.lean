import Kiln.Grammar.Function
import Kiln.Proofs.Grammar.Repetition

/-!
# Reading signatures

The phrases between the name of a function and its body, and that each parser reads
the phrases of its kind.  A parser of several parts in a row is brought into the
form of `Parsed.both`, and what remains to be shown is where one part is over.
-/

namespace Kiln

variable {α : Type}

theorem exists_isPunctuation (p : Punctuation) : ∃ t : Token, t.isPunctuation p :=
  ⟨.ofPunctuation p, by simp [Token.isPunctuation, Token.ofPunctuation, Token.ofText]⟩

theorem exists_isKeyword (k : Keyword) : ∃ t : Token, t.isKeyword k :=
  ⟨.ofKeyword k, by simp [Token.isKeyword, Token.ofKeyword, Token.ofText]⟩

theorem exists_isIdentifier : ∃ t : Token, t.isIdentifier :=
  ⟨.ofText .identifier "", rfl⟩

namespace Phrase

theorem readBy_takePunctuation (p : Punctuation) :
    (token (Token.isPunctuation p)).ReadBy (takePunctuation p) :=
  readBy_takeToken (by simp) (exists_isPunctuation p)

theorem readBy_takeIdentifier {wanted : Wanted} (h : wanted ≠ .expression) :
    (token Token.isIdentifier).ReadBy (takeIdentifier wanted) :=
  readBy_takeToken h exists_isIdentifier

theorem endsBeforePhrase_token {β : Type} (accept : Token → Bool) (q : Phrase β) :
    (token accept).EndsBeforePhrase q :=
  fun _ _ _ => trivial

/-! ## Types and arguments -/

/-- Type names. -/
def typeName : Phrase TypeName where
  Fits := TypeName.Grammatical
  marked type := unmarked type.tokens
  EndsBefore _ _ := True

/-- The name and the type of an argument. -/
def nameAndType : Phrase (Token × TypeName) := (token Token.isIdentifier).seq typeName

theorem exists_typeName : ∃ type, typeName.Fits type := by
  obtain ⟨base, hbase⟩ := exists_isIdentifier
  exact ⟨⟨[], base⟩, by simp, hbase⟩

theorem readBy_takeTypeName : typeName.ReadBy takeTypeName := by
  have hends : (many Token.isStar).EndsBeforePhrase (token Token.isIdentifier) := by
    intro stars base rest _ hbase _
    simp only [token, Token.isIdentifier, beq_iff_eq] at hbase
    simp [many, items, token, Token.isStar, hbase]
  have hbase : (token Token.isIdentifier).ReadBy (takeIdentifier .type) :=
    readBy_takeIdentifier (by simp)
  have hread := (readBy_takeTokens Token.isStar).both hbase hends exists_isIdentifier
  let build : List Token × Token → TypeName := fun r => ⟨r.1, r.2⟩
  let parts : TypeName → List Token × Token := fun type => (type.stars, type.base)
  have heq : takeTypeName = fun input =>
      (Parsed.both (fun input => .ok (takeTokens Token.isStar input)) (takeIdentifier .type)
        input).mapValue build := by
    funext input
    rw [Parsed.mapValue_both]
    rfl
  rw [heq]
  apply hread.mapValue (g := parts)
  refine ⟨fun _ => rfl, fun _ => rfl, ?_, ?_, fun _ _ => Iff.rfl⟩
  · intro r
    exact ⟨fun h => ⟨h.stars, h.base⟩, fun h => ⟨h.1, h.2⟩⟩
  · intro r
    simp [build, typeName, TypeName.tokens, seq, many, token]

theorem readBy_takeNameAndType : nameAndType.ReadBy takeNameAndType :=
  (readBy_takeIdentifier (by simp)).both readBy_takeTypeName (endsBeforePhrase_token _ _)
    exists_typeName

/-! ## Elements in parentheses -/

/-- Elements with commas between them, up to a closing parenthesis. -/
def parenthesized (p : Phrase α) : Phrase (List (α × Option Token)) where
  Fits listed := (∀ entry ∈ listed, p.Fits entry.1) ∧ CommasFit false (listed.map Prod.snd)
  marked := p.listedMarked
  EndsBefore
    | [], next => isNext (Token.isPunctuation .rightParen) next = true
    | listed, next => p.ListedEnds (fun _ => true) listed next

/-- Elements that are over wherever they end and begin with no closing
parenthesis. -/
structure SelfDelimiting (p : Phrase α) : Prop where
  endsBefore : ∀ a next, p.EndsBefore a next
  begins : ∀ {a rest}, p.Fits a →
    isNext (Token.isPunctuation .rightParen) (p.items a ++ rest).head? = false

theorem SelfDelimiting.separable {p : Phrase α} (h : p.SelfDelimiting) :
    p.Separable false (fun _ => true) :=
  ⟨fun _ => rfl, by simp, fun _ _ => h.endsBefore _ _⟩

theorem fits_listed_false_iff {p : Phrase α} {goesOn : Option Item → Bool}
    {listed : List (α × Option Token)} :
    (p.listed false goesOn).Fits listed ↔ p.parenthesized.Fits listed ∧ listed ≠ [] := by
  simp only [Phrase.listed, listedFit_iff, parenthesized, Bool.false_eq_true, and_assoc, ne_eq]

theorem items_parenthesized (p : Phrase α) (entry : α × Option Token)
    (listed : List (α × Option Token)) (rest : List Item) :
    ∃ rest', p.parenthesized.items (entry :: listed) ++ rest = p.items entry.1 ++ rest' := by
  refine ⟨itemsOf (unmarked entry.2.toList ++ p.listedMarked listed) ++ rest, ?_⟩
  simp [items, parenthesized]

section

variable {p : Phrase α} {element : List Item → Parsed α}
  {shrinks : ∀ ⦃items : List Item⦄ ⦃a : α⦄ ⦃rest : List Item⦄,
    element items = .ok (a, rest) → rest.length < items.length}

theorem takeParenthesized_of_isNext {input : List Item}
    (h : isNext (Token.isPunctuation .rightParen) input.head? = true) :
    takeParenthesized element shrinks input = .ok ([], input) := by
  rw [takeParenthesized, beginsWith_eq_isNext, if_pos h]

theorem takeParenthesized_of_not_isNext {input : List Item}
    (h : isNext (Token.isPunctuation .rightParen) input.head? = false) :
    takeParenthesized element shrinks input =
      takeListed (fun _ => true) element shrinks input := by
  rw [takeParenthesized, beginsWith_eq_isNext, if_neg (by simp [h])]

theorem AcceptedBy.parenthesized (hp : p.AcceptedBy element) (hself : p.SelfDelimiting) :
    p.parenthesized.AcceptedBy (takeParenthesized element shrinks) := by
  have hlisted : (p.listed false fun _ => true).AcceptedBy
      (takeListed (fun _ => true) element shrinks) :=
    hp.listed hself.separable fun _ => rfl
  intro input listed rest
  constructor
  · intro h
    cases hnext : isNext (Token.isPunctuation .rightParen) input.head? with
    | true =>
        rw [takeParenthesized_of_isNext hnext] at h
        cases h
        exact ⟨⟨by simp, commasFit_nil false⟩, hnext, rfl⟩
    | false =>
        rw [takeParenthesized_of_not_isNext hnext] at h
        obtain ⟨hfits, hends, hinput⟩ := (hlisted _ _ _).1 h
        obtain ⟨hfits, hne⟩ := fits_listed_false_iff.1 hfits
        obtain ⟨entry, listed, rfl⟩ := List.exists_cons_of_ne_nil hne
        exact ⟨hfits, hends, hinput⟩
  · rintro ⟨hfits, hends, rfl⟩
    cases listed with
    | nil => exact takeParenthesized_of_isNext hends
    | cons entry listed =>
        have hnext : isNext (Token.isPunctuation .rightParen)
            (p.parenthesized.items (entry :: listed) ++ rest).head? = false := by
          obtain ⟨rest', hrest⟩ := p.items_parenthesized entry listed rest
          rw [hrest]
          exact hself.begins (hfits.1 entry (by simp))
        rw [takeParenthesized_of_not_isNext hnext]
        exact (hlisted _ _ _).2
          ⟨fits_listed_false_iff.2 ⟨hfits, List.cons_ne_nil _ _⟩, hends, rfl⟩

/-- Elements that are over wherever they end are read up to a closing
parenthesis. -/
theorem ReadBy.parenthesized (hp : p.ReadBy element) (hself : p.SelfDelimiting) :
    p.parenthesized.ReadBy (takeParenthesized element shrinks) := by
  have hlisted : (p.listed false fun _ => true).ReadBy
      (takeListed (fun _ => true) element shrinks) :=
    hp.accepted.readBy_listed (fun input _ => hp.stuck input) hp.closed hself.separable
      fun _ => rfl
  refine ⟨hp.accepted.parenthesized hself, ?_, ?_⟩
  · intro input fault h
    cases hnext : isNext (Token.isPunctuation .rightParen) input.head? with
    | true =>
        rw [takeParenthesized_of_isNext hnext] at h
        cases h
    | false =>
        rw [takeParenthesized_of_not_isNext hnext] at h
        obtain ⟨before, hinput, ⟨listed, more, hfits, hmarked⟩, hblocked, hwanted⟩ :=
          hlisted.stuck input fault h
        refine ⟨before, hinput, ⟨listed, more, (fits_listed_false_iff.1 hfits).1, hmarked⟩, ?_,
          hwanted⟩
        intro item hitem after
        have hhead : fault.rest.head? = (item :: after).head? := hitem
        rw [takeParenthesized_of_not_isNext, hblocked item hitem after]
        rw [← head?_append_congr hhead, ← hinput, hnext]
  · intro listed hfits
    cases listed with
    | nil => rfl
    | cons entry listed =>
        exact hlisted.closed _ (fits_listed_false_iff.2 ⟨hfits, List.cons_ne_nil _ _⟩)

end

/-- Elements in parentheses are over in front of the closing one. -/
theorem endsBeforePhrase_parenthesized {p : Phrase α} (hself : p.SelfDelimiting) :
    p.parenthesized.EndsBeforePhrase (token (Token.isPunctuation .rightParen)) := by
  intro listed closer rest hfits hcloser _
  have hnext : (token (Token.isPunctuation .rightParen)).items closer ++ rest =
      .token closer :: rest := rfl
  rw [hnext, List.head?_cons]
  cases listed with
  | nil => exact hcloser
  | cons entry listed =>
      have hcomma : closer.isPunctuation .comma = false := by
        simp only [token, Token.isPunctuation, beq_iff_eq] at hcloser
        simp [Token.isPunctuation, hcloser]
      have hlisted : (p.listed false fun _ => true).Fits (entry :: listed) :=
        fits_listed_false_iff.2 ⟨hfits, List.cons_ne_nil entry listed⟩
      clear hfits
      show p.ListedEnds (fun _ => true) (entry :: listed) (some (.token closer))
      induction listed generalizing entry with
      | nil =>
          obtain ⟨a, comma⟩ := entry
          cases comma with
          | none => exact ⟨hself.endsBefore _ _, hcomma⟩
          | some comma => cases hlisted.2.2
      | cons next listed ih =>
          obtain ⟨a, comma⟩ := entry
          cases comma with
          | none => cases hlisted.2
          | some comma => exact ih next hlisted.2.2

/-! ## Arguments and returned types -/

theorem selfDelimiting_nameAndType : nameAndType.SelfDelimiting := by
  refine ⟨fun _ _ => trivial, ?_⟩
  intro a rest ha
  have hname := ha.1
  simp only [token, Token.isIdentifier, beq_iff_eq] at hname
  simp [nameAndType, seq, items, token, Token.isPunctuation, hname]

theorem selfDelimiting_typeName : typeName.SelfDelimiting := by
  refine ⟨fun _ _ => trivial, ?_⟩
  intro type rest htype
  obtain ⟨stars, base⟩ := type
  cases stars with
  | nil =>
      have hbase := htype.base
      simp only [Token.isIdentifier, beq_iff_eq] at hbase
      simp [typeName, items, TypeName.tokens, Token.isPunctuation, hbase]
  | cons star stars =>
      have hstar := htype.stars star (by simp)
      simp only [Token.isStar, beq_iff_eq] at hstar
      simp [typeName, items, TypeName.tokens, Token.isPunctuation, hstar]

/-- An argument as a listed element. -/
def argumentEntry (a : Argument) : (Token × TypeName) × Option Token := ((a.name, a.type), a.comma)

/-- The arguments of a function. -/
def arguments : Phrase (List Argument) where
  Fits as := (∀ a ∈ as, a.Grammatical) ∧ CommasFit false (as.map Argument.comma)
  marked as := unmarked (as.flatMap Argument.tokens)
  EndsBefore as := nameAndType.parenthesized.EndsBefore (as.map argumentEntry)

theorem readBy_takeArguments : arguments.ReadBy takeArguments := by
  have hread : nameAndType.parenthesized.ReadBy
      (takeParenthesized takeNameAndType consumes_takeNameAndType.length_lt) :=
    readBy_takeNameAndType.parenthesized selfDelimiting_nameAndType
  refine hread.mapValue (g := List.map argumentEntry) ⟨?_, ?_, ?_, ?_, ?_⟩
  · intro listed
    simp [argumentEntry, List.map_map, Function.comp_def]
  · intro as
    simp [argumentEntry, List.map_map, Function.comp_def]
  · intro listed
    simp only [arguments, parenthesized, List.map_map]
    refine and_congr ?_ Iff.rfl
    simp only [List.forall_mem_map]
    refine forall₂_congr fun entry _ => ?_
    exact ⟨fun h => ⟨h.name, h.type⟩, fun h => ⟨h.1, h.2⟩⟩
  · intro listed
    simp [arguments, parenthesized, listedMarked, unmarked_flatMap, List.flatMap_map,
      Argument.tokens, nameAndType, seq, token, typeName]
  · intro listed next
    simp [arguments, argumentEntry, List.map_map, Function.comp_def]

/-- A returned type as a listed element. -/
def returnEntry (r : ReturnType) : TypeName × Option Token := (r.type, r.comma)

/-- Returned types in parentheses. -/
def returnTypes : Phrase ReturnTypes where
  Fits := ReturnTypes.Grammatical
  marked types := unmarked types.tokens
  EndsBefore _ _ := True

theorem readBy_takeReturnTypes : returnTypes.ReadBy takeReturnTypes := by
  have hlisted : typeName.parenthesized.ReadBy
      (takeParenthesized takeTypeName consumes_takeTypeName.length_lt) :=
    readBy_takeTypeName.parenthesized selfDelimiting_typeName
  have hread := (readBy_takePunctuation .leftParen).both
    (hlisted.both (readBy_takePunctuation .rightParen)
      (endsBeforePhrase_parenthesized selfDelimiting_typeName) (exists_isPunctuation .rightParen))
    (endsBeforePhrase_token _ _) ⟨([], _), ⟨by simp, commasFit_nil false⟩,
      (exists_isPunctuation .rightParen).choose_spec⟩
  let build : Token × List (TypeName × Option Token) × Token → ReturnTypes :=
    fun r => ⟨r.1, r.2.1.map fun entry => ⟨entry.1, entry.2⟩, r.2.2⟩
  let parts : ReturnTypes → Token × List (TypeName × Option Token) × Token :=
    fun types => (types.opener, types.types.map returnEntry, types.closer)
  have heq : takeReturnTypes = fun input =>
      (Parsed.both (takePunctuation .leftParen)
        (Parsed.both (takeParenthesized takeTypeName consumes_takeTypeName.length_lt)
          (takePunctuation .rightParen)) input).mapValue build := by
    funext input
    simp only [Parsed.mapValue_both]
    rfl
  rw [heq]
  refine hread.mapValue (g := parts) ⟨?_, ?_, ?_, ?_, fun _ _ => Iff.rfl⟩
  · intro r
    simp [parts, build, returnEntry, List.map_map, Function.comp_def]
  · intro types
    simp [parts, build, returnEntry, List.map_map, Function.comp_def]
  · intro r
    constructor
    · intro h
      have htypes := h.types
      have hcommas := h.commas
      simp only [build, List.forall_mem_map, List.map_map] at htypes hcommas
      exact ⟨h.opener, ⟨htypes, hcommas⟩, h.closer⟩
    · rintro ⟨hopener, ⟨htypes, hcommas⟩, hcloser⟩
      refine ⟨hopener, ?_, ?_, hcloser⟩
      · simp only [build, List.forall_mem_map]
        exact htypes
      · simp only [build, List.map_map]
        exact hcommas
  · intro r
    simp [build, returnTypes, ReturnTypes.tokens, ReturnType.tokens, seq, token, parenthesized,
      listedMarked, typeName, unmarked_flatMap, List.flatMap_map]

end Phrase
end Kiln
