import Kiln.Proofs.Grammar.Grammatical

/-!
# Reading phrases

A *phrase* is a kind of value that is written as tokens.  `Phrase.ReadBy` is what a
parser has to do to read the phrases of a kind: it accepts exactly their tokens,
and where it gets stuck the tokens before the fault begin a phrase, while nothing
that goes on with the item at fault is read any further.

Every parser of the grammar is put together from a few ways of combining parsers,
and each of these keeps `Phrase.ReadBy`.
-/

namespace Kiln

variable {α β : Type}

/-! ## The next item -/

/-- Whether the next item is a token that is accepted. -/
def isNext (accept : Token → Bool) : Option Item → Bool
  | some (.token t) => accept t
  | _ => false

theorem beginsWith_eq_isNext (accept : Token → Bool) (items : List Item) :
    beginsWith accept items = isNext accept items.head? := by
  cases items with
  | nil => rfl
  | cons item items => cases item <;> rfl

@[simp] theorem isNext_none (accept : Token → Bool) : isNext accept none = false := rfl

@[simp] theorem isNext_token (accept : Token → Bool) (t : Token) :
    isNext accept (some (.token t)) = accept t := rfl

/-- Only a token is accepted as the next item. -/
theorem isNext_eq_true_iff {accept : Token → Bool} {next : Option Item} :
    isNext accept next = true ↔ ∃ t, next = some (.token t) ∧ accept t = true := by
  cases next with
  | none => simp
  | some item => cases item <;> simp [isNext]

theorem exists_of_isNext {accept : Token → Bool} {input : List Item}
    (h : isNext accept input.head? = true) :
    ∃ t rest, input = .token t :: rest ∧ accept t = true := by
  obtain ⟨t, hnext, ht⟩ := isNext_eq_true_iff.1 h
  obtain ⟨rest, rfl⟩ := List.head?_eq_some_iff.1 hnext
  exact ⟨t, rest, rfl, ht⟩

/-- Two lists that go on alike behind the same beginning begin alike. -/
theorem head?_append_congr {before items items' : List Item} (h : items.head? = items'.head?) :
    (before ++ items).head? = (before ++ items').head? := by
  cases before with
  | nil => exact h
  | cons item before => rfl

/-! ## Phrases -/

/-- A kind of phrase: the values that are phrases, their tokens with the operators
between operands marked, and what has to be the next item for a phrase to be over. -/
structure Phrase (α : Type) where
  Fits : α → Prop
  marked : α → List (Token × Bool)
  EndsBefore : α → Option Item → Prop

/-- Whether the last of a marked list joins two operands. -/
def endsInOperator (marked : List (α × Bool)) : Bool :=
  marked.getLast?.any Prod.snd

@[simp] theorem endsInOperator_nil : endsInOperator ([] : List (α × Bool)) = false := rfl

@[simp] theorem endsInOperator_concat (marked : List (α × Bool)) (m : α × Bool) :
    endsInOperator (marked ++ [m]) = m.2 := by
  simp [endsInOperator]

theorem endsInOperator_append {ms ns : List (α × Bool)} :
    endsInOperator (ms ++ ns) = if ns = [] then endsInOperator ms else endsInOperator ns := by
  rcases List.eq_nil_or_concat ns with rfl | ⟨ns, n, rfl⟩
  · simp
  · rw [List.concat_eq_append, if_neg (by simp), ← List.append_assoc, endsInOperator_concat,
      endsInOperator_concat]

@[simp] theorem endsInOperator_unmarked (tokens : List Token) :
    endsInOperator (unmarked tokens) = false := by
  rcases List.eq_nil_or_concat tokens with rfl | ⟨tokens, t, rfl⟩
  · rfl
  · rw [List.concat_eq_append, unmarked, List.map_append]
    exact endsInOperator_concat _ _

namespace Phrase

/-- The items of a phrase. -/
def items (p : Phrase α) (a : α) : List Item := itemsOf (p.marked a)

/-- A parser accepts the items of a phrase that is over where they end, and nothing
else. -/
def AcceptedBy (p : Phrase α) (parser : List Item → Parsed α) : Prop :=
  ∀ (input : List Item) (a : α) (rest : List Item),
    parser input = .ok (a, rest) ↔
      p.Fits a ∧ p.EndsBefore a rest.head? ∧ input = p.items a ++ rest

/-- A parser is rightly stuck behind the tokens `before`: a phrase begins with them,
whatever follows the item at fault changes nothing, and the fault wants an operand
exactly behind an operator. -/
structure StuckBehind (p : Phrase α) (parser : List Item → Parsed α) (fault : SyntaxFault)
    (before : List (Token × Bool)) : Prop where
  begins : ∃ a more, p.Fits a ∧ p.marked a = before ++ more
  blocked : ∀ item ∈ fault.rest.head?, ∀ after,
    parser (itemsOf before ++ item :: after) = .error ⟨fault.wanted, item :: after⟩
  wanted : fault.wanted = .expression ↔ endsInOperator before = true

/-- On some input a parser fails only where it is rightly stuck. -/
def RightlyStuck (p : Phrase α) (parser : List Item → Parsed α) (input : List Item) : Prop :=
  ∀ fault, parser input = .error fault →
    ∃ before, input = itemsOf before ++ fault.rest ∧ p.StuckBehind parser fault before

/-- A parser reads the phrases of a kind. -/
structure ReadBy (p : Phrase α) (parser : List Item → Parsed α) : Prop where
  accepted : p.AcceptedBy parser
  stuck : ∀ input, p.RightlyStuck parser input
  closed : ∀ a, p.Fits a → endsInOperator (p.marked a) = false

/-- An accepted phrase is accepted before anything that goes on alike. -/
theorem AcceptedBy.congr {p : Phrase α} {parser : List Item → Parsed α}
    (h : p.AcceptedBy parser) {input rest rest' : List Item} {a : α}
    (ha : parser input = .ok (a, rest)) (hhead : rest.head? = rest'.head?) :
    parser (p.items a ++ rest') = .ok (a, rest') := by
  obtain ⟨hfits, hends, -⟩ := (h _ _ _).1 ha
  exact (h _ _ _).2 ⟨hfits, hhead ▸ hends, rfl⟩

/-! ## Tokens -/

/-- A single token. -/
def token (accept : Token → Bool) : Phrase Token :=
  ⟨fun t => accept t, fun t => [(t, false)], fun _ _ => True⟩

/-- Taking a token fails exactly where it has to stand and does not. -/
theorem takeToken_eq_error_iff {wanted : Wanted} {accept : Token → Bool} {input : List Item}
    {fault : SyntaxFault} :
    takeToken wanted accept input = .error fault ↔
      isNext accept input.head? = false ∧ fault = ⟨wanted, input⟩ := by
  cases input with
  | nil => simp [takeToken, eq_comm]
  | cons item input =>
      cases item with
      | directive d => simp [takeToken, isNext, eq_comm]
      | token t => cases ht : accept t <;> simp [takeToken, ht, eq_comm]

/-- Taking a token reads it, as long as there is one and an operand is not what is
wanted. -/
theorem readBy_takeToken {wanted : Wanted} {accept : Token → Bool}
    (hwanted : wanted ≠ .expression) (hexists : ∃ t, accept t) :
    (token accept).ReadBy (takeToken wanted accept) := by
  refine ⟨?_, ?_, fun _ _ => rfl⟩
  · intro input t rest
    rw [takeToken_eq_ok_iff]
    simp [token, items, and_comm]
  · intro input fault h
    obtain ⟨hnext, rfl⟩ := takeToken_eq_error_iff.1 h
    refine ⟨[], rfl, ?_, ?_, ?_⟩
    · obtain ⟨t, ht⟩ := hexists
      exact ⟨t, [(t, false)], ht, rfl⟩
    · intro item hitem after
      rw [Option.mem_def] at hitem
      refine takeToken_eq_error_iff.2 ⟨?_, rfl⟩
      simpa [hitem] using hnext
    · simp [hwanted]

/-! ## Sequences -/

/-- One phrase behind another. -/
def seq (p : Phrase α) (q : Phrase β) : Phrase (α × β) where
  Fits r := p.Fits r.1 ∧ q.Fits r.2
  marked r := p.marked r.1 ++ q.marked r.2
  EndsBefore r := q.EndsBefore r.2

/-- A phrase is over where another one begins. -/
def EndsBeforePhrase (p : Phrase α) (q : Phrase β) : Prop :=
  ∀ {a : α} {b : β} {rest : List Item}, p.Fits a → q.Fits b → q.EndsBefore b rest.head? →
    p.EndsBefore a (q.items b ++ rest).head?

end Phrase

/-- One parser after another. -/
def Parsed.both (parser : List Item → Parsed α) (parser' : List Item → Parsed β)
    (input : List Item) : Parsed (α × β) :=
  (parser input).andThen fun a rest => (parser' rest).mapValue fun b => (a, b)

theorem Parsed.mapValue_both {γ : Type} (parser : List Item → Parsed α)
    (parser' : List Item → Parsed β) (f : α × β → γ) (input : List Item) :
    (Parsed.both parser parser' input).mapValue f =
      (parser input).andThen fun a rest => (parser' rest).mapValue fun b => f (a, b) := by
  unfold Parsed.both
  cases parser input with
  | error fault => rfl
  | ok r =>
      simp only [andThen]
      cases parser' r.2 with
      | error fault => rfl
      | ok r' => rfl

theorem Parsed.mapValue_eq_error_iff {f : α → β} {parsed : Parsed α} {fault : SyntaxFault} :
    parsed.mapValue f = .error fault ↔ parsed = .error fault := by
  cases parsed with
  | error fault => simp [mapValue, andThen]
  | ok r => simp [mapValue, andThen]

namespace Phrase

theorem AcceptedBy.both {p : Phrase α} {q : Phrase β} {parser : List Item → Parsed α}
    {parser' : List Item → Parsed β} (hp : p.AcceptedBy parser) (hq : q.AcceptedBy parser')
    (hends : p.EndsBeforePhrase q) : (p.seq q).AcceptedBy (Parsed.both parser parser') := by
  intro input r rest
  simp only [Parsed.both, Parsed.andThen_eq_ok_iff, Parsed.mapValue_eq_ok_iff]
  constructor
  · rintro ⟨a, between, ha, b, hb, rfl⟩
    obtain ⟨hafits, -, rfl⟩ := (hp _ _ _).1 ha
    obtain ⟨hbfits, hbends, rfl⟩ := (hq _ _ _).1 hb
    exact ⟨⟨hafits, hbfits⟩, hbends, by simp [items, seq]⟩
  · rintro ⟨⟨hafits, hbfits⟩, hbends, rfl⟩
    refine ⟨r.1, q.items r.2 ++ rest, (hp _ _ _).2 ⟨hafits, hends hafits hbfits hbends, ?_⟩, r.2,
      (hq _ _ _).2 ⟨hbfits, hbends, rfl⟩, rfl⟩
    simp [items, seq]

/-- Reading one phrase and then another reads them in sequence, if the first is over
where the second begins. -/
theorem ReadBy.both {p : Phrase α} {q : Phrase β} {parser : List Item → Parsed α}
    {parser' : List Item → Parsed β} (hp : p.ReadBy parser) (hq : q.ReadBy parser')
    (hends : p.EndsBeforePhrase q) (hexists : ∃ b, q.Fits b) :
    (p.seq q).ReadBy (Parsed.both parser parser') := by
  refine ⟨hp.accepted.both hq.accepted hends, ?_, ?_⟩
  · intro input fault h
    cases ha : parser input with
    | error fault' =>
        -- stuck in the first phrase: any second one completes the sequence
        simp only [Parsed.both, Parsed.andThen, ha] at h
        cases h
        obtain ⟨before, hinput, ⟨a, more, hfits, hmarked⟩, hblocked, hwanted⟩ :=
          hp.stuck input fault ha
        refine ⟨before, hinput, ?_, ?_, hwanted⟩
        · obtain ⟨b, hb⟩ := hexists
          exact ⟨(a, b), more ++ q.marked b, ⟨hfits, hb⟩, by simp [seq, hmarked]⟩
        · intro item hitem after
          simp only [Parsed.both, hblocked item hitem after, Parsed.andThen]
    | ok r =>
        -- stuck in the second phrase: the first one ends before it as it did
        obtain ⟨a, between⟩ := r
        simp only [Parsed.both, Parsed.andThen, ha, Parsed.mapValue_eq_error_iff] at h
        obtain ⟨before, rfl, ⟨b, more, hfits, hmarked⟩, hblocked, hwanted⟩ :=
          hq.stuck between fault h
        obtain ⟨hafits, -, rfl⟩ := (hp.accepted _ _ _).1 ha
        refine ⟨p.marked a ++ before, by simp [items], ?_, ?_, ?_⟩
        · exact ⟨(a, b), more, ⟨hafits, hfits⟩, by simp [seq, hmarked]⟩
        · intro item hitem after
          have hhead : (itemsOf before ++ fault.rest).head? =
              (itemsOf before ++ item :: after).head? :=
            head?_append_congr hitem
          have hfirst := hp.accepted.congr ha hhead
          rw [items] at hfirst
          simp only [Parsed.both, itemsOf_append, List.append_assoc, hfirst, Parsed.andThen,
            Parsed.mapValue_eq_error_iff]
          exact hblocked item hitem after
        · rw [endsInOperator_append, hwanted]
          split
          · next hnil => simp [hnil, hp.closed a hafits]
          · rfl
  · intro r hr
    have hright := hq.closed r.2 hr.2
    simp only [seq, endsInOperator_append]
    split
    · exact hp.closed r.1 hr.1
    · exact hright

/-! ## Other forms of the same phrase -/

/-- Phrases of one kind in the form of another: `f` makes the second form of the
first, and `g` goes back. -/
structure SameAs (p : Phrase α) (q : Phrase β) (f : α → β) (g : β → α) : Prop where
  left : ∀ a, g (f a) = a
  right : ∀ b, f (g b) = b
  fits : ∀ a, q.Fits (f a) ↔ p.Fits a
  marked : ∀ a, q.marked (f a) = p.marked a
  endsBefore : ∀ a next, q.EndsBefore (f a) next ↔ p.EndsBefore a next

theorem AcceptedBy.mapValue {p : Phrase α} {q : Phrase β} {f : α → β} {g : β → α}
    {parser : List Item → Parsed α} (h : p.AcceptedBy parser) (hsame : p.SameAs q f g) :
    q.AcceptedBy fun input => (parser input).mapValue f := by
  intro input b rest
  rw [Parsed.mapValue_eq_ok_iff]
  constructor
  · rintro ⟨a, ha, rfl⟩
    rw [hsame.fits, hsame.endsBefore, items, hsame.marked]
    exact (h _ _ _).1 ha
  · intro hb
    refine ⟨g b, ?_, hsame.right b⟩
    rw [← hsame.right b, hsame.fits, hsame.endsBefore, items, hsame.marked] at hb
    exact (h _ _ _).2 hb

/-- Making another form of a phrase that was read reads the other form. -/
theorem ReadBy.mapValue {p : Phrase α} {q : Phrase β} {f : α → β} {g : β → α}
    {parser : List Item → Parsed α} (h : p.ReadBy parser) (hsame : p.SameAs q f g) :
    q.ReadBy fun input => (parser input).mapValue f := by
  refine ⟨h.accepted.mapValue hsame, ?_, ?_⟩
  · intro input fault hfault
    rw [Parsed.mapValue_eq_error_iff] at hfault
    obtain ⟨before, hinput, ⟨a, more, hfits, hmarked⟩, hblocked, hwanted⟩ :=
      h.stuck input fault hfault
    refine ⟨before, hinput, ⟨f a, more, ?_, ?_⟩, ?_, hwanted⟩
    · exact (hsame.fits a).2 hfits
    · rw [hsame.marked, hmarked]
    · intro item hitem after
      rw [Parsed.mapValue_eq_error_iff]
      exact hblocked item hitem after
  · intro b hb
    rw [← hsame.right b, hsame.fits] at hb
    rw [← hsame.right b, hsame.marked]
    exact h.closed _ hb

end Phrase
end Kiln
