import Kiln.Grammar.Fault

/-!
# Parsing items

A parser takes items off the front of a list: it gives what it made of them and
the items that are left, or the place where it got stuck.  `Consumes` says that a
parser loses nothing: its input is the tokens of the result followed by the rest.
-/

namespace Kiln

/-- What was made of the first items, and the items left. -/
abbrev Parsed (α : Type) := Except SyntaxFault (α × List Item)

namespace Parsed

variable {α β : Type}

/-- Goes on with the items left, unless stuck. -/
def andThen (parsed : Parsed α) (next : α → List Item → Parsed β) : Parsed β :=
  match parsed with
  | .error fault => .error fault
  | .ok (a, rest) => next a rest

/-- Makes something else of the items taken. -/
def mapValue (f : α → β) (parsed : Parsed α) : Parsed β :=
  parsed.andThen fun a rest => .ok (f a, rest)

@[simp] theorem andThen_eq_ok_iff {parsed : Parsed α} {next : α → List Item → Parsed β}
    {r : β × List Item} :
    parsed.andThen next = .ok r ↔ ∃ a rest, parsed = .ok (a, rest) ∧ next a rest = .ok r := by
  cases parsed with
  | error fault => simp [andThen]
  | ok p =>
    obtain ⟨a, rest⟩ := p
    simp only [andThen, Except.ok.injEq, Prod.mk.injEq]
    exact ⟨fun h => ⟨a, rest, ⟨rfl, rfl⟩, h⟩, fun ⟨_, _, ⟨ha, hr⟩, h⟩ => ha ▸ hr ▸ h⟩

@[simp] theorem mapValue_eq_ok_iff {f : α → β} {parsed : Parsed α} {b : β} {rest : List Item} :
    mapValue f parsed = .ok (b, rest) ↔ ∃ a, parsed = .ok (a, rest) ∧ f a = b := by
  simp only [mapValue, andThen_eq_ok_iff, Except.ok.injEq, Prod.mk.injEq]
  exact ⟨fun ⟨a, _, h, hb, hr⟩ => ⟨a, hr ▸ h, hb⟩, fun ⟨a, h, hb⟩ => ⟨a, rest, h, hb, rfl⟩⟩

end Parsed

/-- Whether the first item is a token that is accepted. -/
def beginsWith (accept : Token → Bool) : List Item → Bool
  | .token t :: _ => accept t
  | _ => false

/-- Takes a token that is accepted. -/
def takeToken (wanted : Wanted) (accept : Token → Bool) : List Item → Parsed Token
  | [] => .error ⟨wanted, []⟩
  | .directive d :: rest => .error ⟨wanted, .directive d :: rest⟩
  | .token t :: rest => if accept t then .ok (t, rest) else .error ⟨wanted, .token t :: rest⟩

/-- Takes a token if it is accepted. -/
def takeToken? (accept : Token → Bool) : List Item → Option Token × List Item
  | .token t :: rest => if accept t then (some t, rest) else (none, .token t :: rest)
  | items => (none, items)

/-- Takes tokens as long as they are accepted. -/
def takeTokens (accept : Token → Bool) : List Item → List Token × List Item
  | .token t :: rest =>
    if accept t then
      let (ts, rest) := takeTokens accept rest
      (t :: ts, rest)
    else ([], .token t :: rest)
  | items => ([], items)

/-- Whether a token is a keyword. -/
def Token.isKeyword (k : Keyword) (t : Token) : Bool := t.kind == .keyword k

/-- Whether a token is a punctuation mark. -/
def Token.isPunctuation (p : Punctuation) (t : Token) : Bool := t.kind == .punctuation p

/-- Whether a token is an identifier. -/
def Token.isIdentifier (t : Token) : Bool := t.kind == .identifier

/-- Whether a token is an operand. -/
def Token.isOperand (t : Token) : Bool := t.kind.isOperand

/-- Whether a token is a star. -/
def Token.isStar (t : Token) : Bool := t.kind == .operator .times

/-- Takes a punctuation mark. -/
def takePunctuation (p : Punctuation) : List Item → Parsed Token :=
  takeToken (.punctuation p) (Token.isPunctuation p)

/-- Takes an identifier. -/
def takeIdentifier (wanted : Wanted) : List Item → Parsed Token :=
  takeToken wanted Token.isIdentifier

/-- The input of a parser is the tokens of its result, at least one, and then the
rest. -/
def Consumes {α : Type} (parser : List Item → Parsed α) (tokens : α → List Token) : Prop :=
  ∀ ⦃items : List Item⦄ ⦃a : α⦄ ⦃rest : List Item⦄, parser items = .ok (a, rest) →
    items = (tokens a).map .token ++ rest ∧ tokens a ≠ []

theorem Consumes.length_lt {α : Type} {parser : List Item → Parsed α} {tokens : α → List Token}
    (h : Consumes parser tokens) ⦃items : List Item⦄ ⦃a : α⦄ ⦃rest : List Item⦄
    (ha : parser items = .ok (a, rest)) : rest.length < items.length := by
  obtain ⟨rfl, hne⟩ := h ha
  have := List.length_pos_iff.2 hne
  simp only [List.length_append, List.length_map]
  omega

theorem takeToken_eq_ok_iff {wanted : Wanted} {accept : Token → Bool} {items rest : List Item}
    {t : Token} :
    takeToken wanted accept items = .ok (t, rest) ↔
      items = .token t :: rest ∧ accept t = true := by
  cases items with
  | nil => simp [takeToken]
  | cons item items =>
    cases item with
    | directive d => simp [takeToken]
    | token s =>
      by_cases hs : accept s = true
      · simp only [takeToken, hs, if_true, Except.ok.injEq, Prod.mk.injEq, List.cons.injEq,
          Item.token.injEq]
        exact ⟨fun h => ⟨h, h.1 ▸ hs⟩, fun h => h.1⟩
      · simp only [takeToken, hs, Bool.false_eq_true, if_false, reduceCtorEq, List.cons.injEq,
          Item.token.injEq, false_iff, not_and]
        rintro ⟨rfl, _⟩
        exact hs

theorem consumes_takeToken (wanted : Wanted) (accept : Token → Bool) :
    Consumes (takeToken wanted accept) fun t => [t] := by
  intro items t rest h
  rw [takeToken_eq_ok_iff] at h
  exact ⟨by simpa using h.1, by simp⟩

theorem takeToken?_append (accept : Token → Bool) (items : List Item) :
    items = (takeToken? accept items).1.toList.map .token ++ (takeToken? accept items).2 := by
  unfold takeToken?
  split
  · split <;> rfl
  · rfl

theorem takeTokens_append (accept : Token → Bool) (items : List Item) :
    items = (takeTokens accept items).1.map .token ++ (takeTokens accept items).2 := by
  fun_induction takeTokens accept items with
  | case1 t rest _ ts rest' h ih =>
    rw [h] at ih
    simpa using ih
  | case2 => rfl
  | case3 => rfl

/-- Takes elements that are separated by commas, as long as `goesOn` holds of the
items left: an element, and after a comma the next one. -/
def takeListed {α : Type} (goesOn : List Item → Bool) (element : List Item → Parsed α)
    (shrinks : ∀ ⦃items : List Item⦄ ⦃a : α⦄ ⦃rest : List Item⦄,
      element items = .ok (a, rest) → rest.length < items.length)
    (items : List Item) : Parsed (List (α × Option Token)) :=
  if goesOn items then
    match _helement : element items with
    | .error fault => .error fault
    | .ok (a, after) =>
      match _hcomma : takeToken? (Token.isPunctuation .comma) after with
      | (none, rest) => .ok ([(a, none)], rest)
      | (some comma, rest) =>
        (takeListed goesOn element shrinks rest).mapValue ((a, some comma) :: ·)
  else .ok ([], items)
termination_by items.length
decreasing_by
  have hlt := shrinks _helement
  have happend := congrArg List.length (takeToken?_append (Token.isPunctuation .comma) after)
  rw [_hcomma] at happend
  simp only [List.length_append, List.length_map] at happend
  omega

/-- The tokens of listed elements. -/
def listedTokens {α : Type} (tokens : α → List Token) (listed : List (α × Option Token)) :
    List Token :=
  listed.flatMap fun entry => tokens entry.1 ++ entry.2.toList

/-- Listed elements and the items left are the input again. -/
theorem takeListed_append {α : Type} {goesOn : List Item → Bool}
    {element : List Item → Parsed α} {tokens : α → List Token}
    (consumes : Consumes element tokens) {items rest : List Item}
    {listed : List (α × Option Token)}
    (h : takeListed goesOn element consumes.length_lt items = .ok (listed, rest)) :
    items = (listedTokens tokens listed).map .token ++ rest := by
  induction hlen : items.length using Nat.strongRecOn generalizing items listed rest with
  | ind n ih =>
    unfold takeListed at h
    split at h
    · split at h
      · cases h
      · next a after helement =>
        have hitems := (consumes helement).1
        have hlt := consumes.length_lt helement
        split at h
        · next after' hcomma =>
          have hafter := takeToken?_append (Token.isPunctuation .comma) after
          rw [hcomma] at hafter
          cases h
          rw [hitems, hafter]
          simp [listedTokens]
        · next comma after' hcomma =>
          have hafter := takeToken?_append (Token.isPunctuation .comma) after
          rw [hcomma] at hafter
          rw [Parsed.mapValue_eq_ok_iff] at h
          obtain ⟨more, hmore, rfl⟩ := h
          have hlen' : after'.length < n := by
            rw [hafter] at hlt
            simp only [List.length_append, List.length_map] at hlt
            omega
          rw [hitems, hafter, ih _ hlen' hmore rfl]
          simp [listedTokens]
    · cases h
      rfl

end Kiln
