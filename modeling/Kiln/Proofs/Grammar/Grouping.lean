import Kiln.Proofs.Grammar.Climbing

/-!
# What the operators of an expression take

An expression without parentheses is an operand and *links*, operators each with the operand
behind it.  How its operators are nested can be said without a parser: the last of the loosest
operators takes all that stands on its two sides, and the sides are nested in the same way.

A climb reads as many links as are tight enough, and nests them like this.
-/

namespace Kiln

/-- An operator and the operand behind it. -/
structure Link where
  operator : Token
  operand : Token

namespace Link

variable {minimum : Nat} {link : Link} {links before after : List Link} {rest : List Item}

/-- The items of links in source order. -/
def items (links : List Link) : List Item :=
  links.flatMap fun link => [.token link.operator, .token link.operand]

/-- How tightly the operator of a link binds. -/
def tightness (link : Link) : Nat := link.operator.kind.precedence?.getD 0

/-- Whether a link goes on an expression of operators that bind at least as tightly as
`minimum`. -/
def JoinsFrom (minimum : Nat) (link : Link) : Prop :=
  link.operator.joinsFrom minimum = true ∧ link.operand.isOperand = true

theorem items_cons (link : Link) (links : List Link) :
    items (link :: links) = .token link.operator :: .token link.operand :: items links := rfl

theorem items_append (links more : List Link) : items (links ++ more) = items links ++ items more :=
  List.flatMap_append

theorem JoinsFrom.precedence?_eq (h : link.JoinsFrom minimum) :
    link.operator.kind.precedence? = some link.tightness ∧ minimum ≤ link.tightness := by
  obtain ⟨precedence, hprecedence, hle⟩ := Token.joinsFrom_iff.1 h.1
  rw [tightness, hprecedence]
  exact ⟨rfl, hle⟩

theorem JoinsFrom.joinsFrom_iff (h : link.JoinsFrom minimum) (bound : Nat) :
    link.operator.joinsFrom bound = true ↔ bound ≤ link.tightness := by
  rw [Token.joinsFrom_iff, h.precedence?_eq.1]
  simp

theorem JoinsFrom.tighten (h : link.JoinsFrom minimum) {bound : Nat}
    (hle : bound ≤ link.tightness) :
    link.JoinsFrom bound :=
  ⟨(h.joinsFrom_iff bound).2 hle, h.2⟩

/-! ## Splitting -/

/-- The last of the loosest links, with the links before and behind it. -/
def splitLoosest? : List Link → Option (List Link × Link × List Link)
  | [] => none
  | link :: links =>
    match splitLoosest? links with
    | none => some ([], link, [])
    | some (before, loosest, after) =>
      if loosest.tightness ≤ link.tightness then some (link :: before, loosest, after)
      else some ([], link, links)

theorem splitLoosest?_eq_none_iff : splitLoosest? links = none ↔ links = [] := by
  cases links with
  | nil => exact iff_of_true rfl rfl
  | cons link links =>
      refine iff_of_false ?_ (List.cons_ne_nil _ _)
      rw [splitLoosest?]
      split
      · exact Option.some_ne_none _
      · split <;> exact Option.some_ne_none _

/-- The links before the last of the loosest ones are no looser, those behind it are tighter. -/
theorem splitLoosest?_spec (h : splitLoosest? links = some (before, link, after)) :
    links = before ++ link :: after ∧ (∀ l ∈ before, link.tightness ≤ l.tightness) ∧
      ∀ l ∈ after, link.tightness < l.tightness := by
  induction links generalizing before link after with
  | nil => cases h
  | cons first links ih =>
      rw [splitLoosest?] at h
      split at h
      · next hnone =>
          cases h
          rw [splitLoosest?_eq_none_iff.1 hnone]
          exact ⟨rfl, List.forall_mem_nil _, List.forall_mem_nil _⟩
      · next front loosest behind hsome =>
          obtain ⟨hlinks, hfront, hbehind⟩ := ih hsome
          split at h
          · next hle =>
              cases h
              exact ⟨congrArg (first :: ·) hlinks, List.forall_mem_cons.2 ⟨hle, hfront⟩, hbehind⟩
          · next hlt =>
              cases h
              refine ⟨rfl, List.forall_mem_nil _, fun l hl => ?_⟩
              rw [hlinks, List.mem_append, List.mem_cons] at hl
              have hloosest : loosest.tightness ≤ l.tightness := by
                rcases hl with hl | rfl | hl
                · exact hfront l hl
                · exact Nat.le_refl _
                · exact Nat.le_of_lt (hbehind l hl)
              exact Nat.lt_of_lt_of_le (Nat.not_le.1 hlt) hloosest

/-- No other split has this property. -/
theorem splitLoosest?_append (hbefore : ∀ l ∈ before, link.tightness ≤ l.tightness)
    (hafter : ∀ l ∈ after, link.tightness < l.tightness) :
    splitLoosest? (before ++ link :: after) = some (before, link, after) := by
  induction before with
  | nil =>
      rw [List.nil_append, splitLoosest?]
      split
      · next hnone => rw [splitLoosest?_eq_none_iff.1 hnone]
      · next front loosest behind hsome =>
          have hmem : loosest ∈ after := by
            rw [(splitLoosest?_spec hsome).1]
            exact List.mem_append_cons_self
          rw [if_neg (Nat.not_le.2 (hafter loosest hmem))]
  | cons first before ih =>
      obtain ⟨hfirst, hrest⟩ := List.forall_mem_cons.1 hbefore
      rw [List.cons_append, splitLoosest?, ih hrest]
      exact if_pos hfirst

theorem length_splitLoosest? (h : splitLoosest? links = some (before, link, after)) :
    before.length < links.length ∧ after.length < links.length := by
  rw [(splitLoosest?_spec h).1, List.length_append, List.length_cons]
  omega

end Link

/-- An expression to which links are joined: the last of the loosest operators takes the two
sides. -/
def Expression.join (left : Expression) (links : List Link) : Expression :=
  match _h : Link.splitLoosest? links with
  | none => left
  | some (before, link, after) =>
    .binary (left.join before) link.operator (Expression.join (.leaf link.operand) after)
termination_by links.length
decreasing_by
  · exact (Link.length_splitLoosest? _h).1
  · exact (Link.length_splitLoosest? _h).2

namespace Expression

variable {minimum : Nat} {left : Expression} {link : Link} {links before after : List Link}
  {rest : List Item}

theorem join_nil (left : Expression) : left.join [] = left := by
  rw [join]
  rfl

theorem join_split (hbefore : ∀ l ∈ before, link.tightness ≤ l.tightness)
    (hafter : ∀ l ∈ after, link.tightness < l.tightness) :
    left.join (before ++ link :: after) =
      .binary (left.join before) link.operator (join (.leaf link.operand) after) := by
  rw [join]
  split
  · next hnone => rw [Link.splitLoosest?_append hbefore hafter] at hnone; cases hnone
  · next hsome => rw [Link.splitLoosest?_append hbefore hafter] at hsome; cases hsome; rfl

/-- Tighter links behind a link are joined to its operand; if none of the others is tighter at
first, these are joined to the outcome. -/
theorem join_append {tight loose : List Link} (htight : ∀ l ∈ tight, link.tightness < l.tightness)
    (hloose : ∀ l ∈ loose.head?, l.tightness ≤ link.tightness) :
    left.join (link :: tight ++ loose) =
      (binary left link.operator (join (.leaf link.operand) tight)).join loose := by
  induction hlength : loose.length using Nat.strongRecOn generalizing loose with
  | ind n ih =>
      cases hsplit : Link.splitLoosest? loose with
      | none =>
          rw [Link.splitLoosest?_eq_none_iff.1 hsplit, List.append_nil, join_nil]
          have hjoin : left.join ([] ++ link :: tight) = _ :=
            join_split (List.forall_mem_nil _) htight
          rwa [List.nil_append, join_nil] at hjoin
      | some parts =>
          obtain ⟨before, loosest, after⟩ := parts
          obtain ⟨rfl, hbefore, hafter⟩ := Link.splitLoosest?_spec hsplit
          -- the loosest link of the others is no tighter than the first of them
          have hhead : ∀ l ∈ before.head?, l.tightness ≤ link.tightness := by
            intro l hl
            refine hloose l ?_
            rw [List.head?_append, Option.mem_def.1 hl]
            rfl
          have hle : loosest.tightness ≤ link.tightness := by
            cases before with
            | nil => exact hloose loosest rfl
            | cons first before =>
                exact Nat.le_trans (hbefore first List.mem_cons_self) (hhead first rfl)
          have hall : ∀ l ∈ link :: tight ++ before, loosest.tightness ≤ l.tightness := by
            rw [List.cons_append, List.forall_mem_cons, List.forall_mem_append]
            exact ⟨hle, fun l hl => Nat.le_trans hle (Nat.le_of_lt (htight l hl)), hbefore⟩
          have hshort : before.length < n := by
            rw [← hlength, List.length_append, List.length_cons]
            omega
          rw [← List.append_assoc, join_split hall hafter, ih _ hshort hhead rfl,
            join_split hbefore hafter]

end Expression

/-! ## Climbing -/

/-- No link stands in front of items: an operator that is tight enough has no operand behind
it. -/
def LinksEnd (minimum : Nat) (rest : List Item) : Prop :=
  isNext (Token.joinsFrom minimum) rest.head? = true →
    isNext Token.isOperand rest.tail.head? = false

section Climb

variable {minimum bound limit : Nat} {left : Expression} {links links' : List Link}
  {rest rest' : List Item}

theorem isNext_joinsFrom_of_le (hle : minimum ≤ bound)
    (h : isNext (Token.joinsFrom bound) rest.head? = true) :
    isNext (Token.joinsFrom minimum) rest.head? = true := by
  cases hminimum : isNext (Token.joinsFrom minimum) rest.head? with
  | true => rfl
  | false =>
      rw [isNext_joinsFrom_mono hle hminimum] at h
      cases h

theorem LinksEnd.mono (h : LinksEnd minimum rest) (hle : minimum ≤ bound) : LinksEnd bound rest :=
  fun hnext => h (isNext_joinsFrom_of_le hle hnext)

/-- Where links begin with one that is no tighter than `limit`, only items behind them can have
a tighter operator in front. -/
theorem eq_nil_of_isNext_items (hjoins : ∀ l ∈ links, l.JoinsFrom minimum)
    (hlimit : ∀ l ∈ links.head?, l.tightness ≤ limit)
    (h : isNext (Token.joinsFrom (limit + 1)) (Link.items links ++ rest).head? = true) :
    links = [] := by
  cases links with
  | nil => rfl
  | cons first links =>
      have htighter := ((hjoins first List.mem_cons_self).joinsFrom_iff (limit + 1)).1 h
      exact absurd (hlimit first rfl) (Nat.not_le.2 htighter)

theorem LinksEnd.items_append (hrest : LinksEnd minimum rest)
    (hjoins : ∀ l ∈ links, l.JoinsFrom minimum) (hlimit : ∀ l ∈ links.head?, l.tightness ≤ limit)
    (hminimum : minimum ≤ limit + 1) : LinksEnd (limit + 1) (Link.items links ++ rest) := by
  intro hnext
  obtain rfl := eq_nil_of_isNext_items hjoins hlimit hnext
  exact hrest.mono hminimum hnext

/-- The links after one, parted into those that go to its operand and the others. -/
theorem Link.exists_tight (link : Link) (links : List Link) :
    ∃ tight loose, tight ++ loose = links ∧ (∀ l ∈ tight, link.tightness < l.tightness) ∧
      ∀ l ∈ loose.head?, l.tightness ≤ link.tightness := by
  let isTighter : Link → Bool := fun l => link.tightness < l.tightness
  refine ⟨links.takeWhile isTighter, links.dropWhile isTighter,
    List.takeWhile_append_dropWhile, ?_, ?_⟩
  · intro l hl
    exact of_decide_eq_true (List.all_eq_true.1 List.all_takeWhile l hl)
  · intro l hl
    have hnot := List.head?_dropWhile_not isTighter links
    rw [Option.mem_def.1 hl] at hnot
    exact Nat.not_lt.1 (of_decide_eq_false hnot)

/-- A climb joins all links that are ahead, and fails if an operator that it has to take comes
behind them. -/
theorem extendExpression_items (hlinks : ∀ l ∈ links, l.JoinsFrom minimum)
    (hrest : LinksEnd minimum rest) :
    extendExpression minimum left (Link.items links ++ rest) =
      if isNext (Token.joinsFrom minimum) rest.head? then .error ⟨.expression, rest.tail⟩
      else .ok (left.join links, rest) := by
  induction hlength : links.length using Nat.strongRecOn
    generalizing minimum left links rest with
  | ind n ih =>
      cases links with
      | nil =>
          show extendExpression minimum left rest = _
          cases hnext : isNext (Token.joinsFrom minimum) rest.head? with
          | false =>
              rw [extendExpression_stop (operatorAhead?_eq_none_iff.2 hnext), Expression.join_nil]
              rfl
          | true =>
              have hoperand := hrest hnext
              obtain ⟨t, after, rfl, ht⟩ := exists_of_isNext hnext
              obtain ⟨precedence, hprecedence⟩ := Token.joinsFrom_iff.1 ht
              have hafter : isNext Token.isOperand after.head? = false := hoperand
              rw [extendExpression_operator (operatorAhead?_token_eq_some_iff.2 hprecedence),
                takeExpression_of_not_operand hafter]
              rfl
      | cons link links =>
          obtain ⟨hlink, hlinks⟩ := List.forall_mem_cons.1 hlinks
          obtain ⟨tight, loose, rfl, htight, hloose⟩ := link.exists_tight links
          obtain ⟨htightJoins, hlooseJoins⟩ := List.forall_mem_append.1 hlinks
          rw [List.length_cons, List.length_append] at hlength
          have hminimum : minimum ≤ link.tightness + 1 :=
            Nat.le_succ_of_le hlink.precedence?_eq.2
          -- the operand of the link takes the tight links, and the climb goes on behind them
          have hoperand : takeExpression (link.tightness + 1)
              (.token link.operand :: (Link.items tight ++ (Link.items loose ++ rest))) =
              if isNext (Token.joinsFrom (link.tightness + 1)) (Link.items loose ++ rest).head? then
                .error ⟨.expression, (Link.items loose ++ rest).tail⟩
              else .ok (Expression.join (.leaf link.operand) tight, Link.items loose ++ rest) := by
            rw [takeExpression_operand hlink.2]
            apply ih tight.length (by omega) _ _ rfl
            · exact fun l hl => (htightJoins l hl).tighten (htight l hl)
            · exact hrest.items_append hlooseJoins hloose hminimum
          rw [Link.items_cons, Link.items_append, List.cons_append, List.cons_append,
            List.append_assoc,
            extendExpression_operator (operatorAhead?_token_eq_some_iff.2 hlink.precedence?_eq),
            hoperand]
          cases hnext : isNext (Token.joinsFrom (link.tightness + 1))
              (Link.items loose ++ rest).head? with
          | true =>
              obtain rfl := eq_nil_of_isNext_items hlooseJoins hloose hnext
              have hbehind : isNext (Token.joinsFrom minimum) rest.head? = true :=
                isNext_joinsFrom_of_le hminimum hnext
              rw [hbehind]
              rfl
          | false =>
              rw [← List.cons_append, Expression.join_append htight hloose]
              exact ih loose.length (by omega) hlooseJoins hrest rfl

/-! ## The links ahead -/

/-- An operator that is tight enough, with an operand behind it, is a link. -/
theorem exists_link_of_not_linksEnd (h : ¬LinksEnd minimum rest) :
    ∃ link after, rest = Link.items [link] ++ after ∧ link.JoinsFrom minimum := by
  obtain ⟨hnext, hoperand⟩ := Classical.not_imp.1 h
  obtain ⟨t, after, rfl, ht⟩ := exists_of_isNext hnext
  obtain ⟨s, more, hmore, hs⟩ := exists_of_isNext (Bool.not_eq_false _ ▸ hoperand)
  exact ⟨⟨t, s⟩, more, congrArg (.token t :: ·) hmore, ht, hs⟩

/-- All links that are ahead can be taken. -/
theorem exists_links (minimum : Nat) (input : List Item) :
    ∃ links rest, input = Link.items links ++ rest ∧ (∀ l ∈ links, l.JoinsFrom minimum) ∧
      LinksEnd minimum rest := by
  induction hlength : input.length using Nat.strongRecOn generalizing input with
  | ind n ih =>
      by_cases hend : LinksEnd minimum input
      · exact ⟨[], input, rfl, List.forall_mem_nil _, hend⟩
      · obtain ⟨link, after, rfl, hlink⟩ := exists_link_of_not_linksEnd hend
        rw [Link.items_cons, List.length_append, List.length_cons, List.length_cons] at hlength
        obtain ⟨links, rest, rfl, hlinks, hrest⟩ := ih after.length (by omega) after rfl
        refine ⟨link :: links, rest, ?_, List.forall_mem_cons.2 ⟨hlink, hlinks⟩, hrest⟩
        rw [← List.append_assoc, ← Link.items_append]
        rfl

/-- They are the longest links ahead. -/
theorem links_prefix (hrest : LinksEnd minimum rest) (hlinks' : ∀ l ∈ links', l.JoinsFrom minimum)
    (h : Link.items links' ++ rest' = Link.items links ++ rest) : links' <+: links := by
  induction links' generalizing links with
  | nil => exact List.nil_prefix
  | cons link' links' ih =>
      obtain ⟨hlink', hlinks'⟩ := List.forall_mem_cons.1 hlinks'
      cases links with
      | nil =>
          obtain rfl : Link.items (link' :: links') ++ rest' = rest := h
          have hoperand := hrest hlink'.1
          exact absurd hlink'.2 (Bool.eq_false_iff.1 hoperand)
      | cons link links =>
          simp only [Link.items_cons, List.cons_append] at h
          obtain ⟨hoperator, hbehind⟩ := List.cons.inj h
          obtain ⟨hoperand, htail⟩ := List.cons.inj hbehind
          obtain rfl : link' = link := by
            cases link'
            cases link
            cases hoperator
            cases hoperand
            rfl
          exact (List.prefix_cons_inj link').2 (ih hlinks' htail)

/-- An expression of operators that bind at least as tightly as `minimum` takes the longest
links ahead and nests them with the last of the loosest operators outermost.  It fails only if
an operator that it has to take comes behind the links, with no operand of its own. -/
theorem takeExpression_grouping (minimum : Nat) {first : Token} (hfirst : first.isOperand = true)
    (input : List Item) :
    (∀ fault, takeExpression minimum (.token first :: input) = .error fault ↔
      ∃ links operator after, input = Link.items links ++ .token operator :: after ∧
        (∀ l ∈ links, l.JoinsFrom minimum) ∧ operator.joinsFrom minimum = true ∧
        isNext Token.isOperand after.head? = false ∧ fault = ⟨.expression, after⟩) ∧
    ∀ e rest, takeExpression minimum (.token first :: input) = .ok (e, rest) ↔
      ∃ links, input = Link.items links ++ rest ∧ (∀ l ∈ links, l.JoinsFrom minimum) ∧
        isNext (Token.joinsFrom minimum) rest.head? = false ∧
        (∀ links' rest', input = Link.items links' ++ rest' →
          (∀ l ∈ links', l.JoinsFrom minimum) → links' <+: links) ∧
        e = (Expression.leaf first).join links := by
  rw [takeExpression_operand hfirst]
  obtain ⟨links, rest, rfl, hlinks, hrest⟩ := exists_links minimum input
  have hresult : extendExpression minimum (.leaf first) (Link.items links ++ rest) = _ :=
    extendExpression_items hlinks hrest
  constructor
  · intro fault
    constructor
    · intro h
      rw [hresult] at h
      split at h
      · next hnext =>
          have hoperand := hrest hnext
          obtain ⟨operator, after, rfl, hoperator⟩ := exists_of_isNext hnext
          cases h
          exact ⟨links, operator, after, rfl, hlinks, hoperator, hoperand, rfl⟩
      · cases h
    · rintro ⟨links', operator, after, hinput, hlinks', hoperator, hoperand, rfl⟩
      have hend : LinksEnd minimum (.token operator :: after) := fun _ => hoperand
      rw [hinput, extendExpression_items hlinks' hend]
      exact if_pos hoperator
  · intro e behind
    constructor
    · intro h
      rw [hresult] at h
      split at h
      · cases h
      · next hnext =>
          cases h
          refine ⟨links, rfl, hlinks, Bool.eq_false_iff.2 hnext, ?_, rfl⟩
          intro links' rest' hinput hlinks'
          exact links_prefix hrest hlinks' hinput.symm
    · rintro ⟨links', hinput, hlinks', hnext, -, rfl⟩
      have hstop : ¬isNext (Token.joinsFrom minimum) behind.head? = true :=
        Bool.eq_false_iff.1 hnext
      rw [hinput, extendExpression_items hlinks' fun hnext' => absurd hnext' hstop]
      exact if_neg hstop

/-- In `a - b * c - d;` the second minus takes all that is before it, and `a - b *` fails behind
its last operator. -/
theorem takeExpression_grouping_minus_times :
    let name : String → Token := .ofText .identifier
    let minus : Token := .ofOperator .minus
    let times : Token := .ofOperator .times
    let semicolon : Item := .token (.ofPunctuation .semicolon)
    let chain : List Item := [.token minus, .token (name "b"), .token times, .token (name "c"),
      .token minus, .token (name "d"), semicolon]
    let e : Expression := .binary (.binary (.leaf (name "a")) minus
      (.binary (.leaf (name "b")) times (.leaf (name "c")))) minus (.leaf (name "d"))
    (name "a").isOperand = true ∧
      takeExpression lowestPrecedence (.token (name "a") :: chain) = .ok (e, [semicolon]) ∧
      takeExpression lowestPrecedence [.token (name "a"), .token minus, .token (name "b"),
        .token times] = .error ⟨.expression, []⟩ := by
  intro name minus times semicolon chain e
  have hjoins : ∀ l ∈ [Link.mk minus (name "b"), ⟨times, name "c"⟩, ⟨minus, name "d"⟩],
      l.JoinsFrom lowestPrecedence := by
    simp only [List.forall_mem_cons, Link.JoinsFrom]
    exact ⟨⟨rfl, rfl⟩, ⟨rfl, rfl⟩, ⟨rfl, rfl⟩, List.forall_mem_nil _⟩
  have hend : LinksEnd lowestPrecedence [semicolon] := nofun
  refine ⟨rfl, ?_, ?_⟩
  · refine ((takeExpression_grouping lowestPrecedence rfl chain).2 _ _).2
      ⟨[⟨minus, name "b"⟩, ⟨times, name "c"⟩, ⟨minus, name "d"⟩], rfl, hjoins, rfl, ?_, ?_⟩
    · intro links' rest' hchain hlinks'
      exact links_prefix hend hlinks' hchain.symm
    · cbv
  · refine ((takeExpression_grouping lowestPrecedence rfl _).1 _).2
      ⟨[⟨minus, name "b"⟩], times, [], rfl, ?_, rfl, rfl, rfl⟩
    exact List.forall_mem_singleton.2 (hjoins _ List.mem_cons_self)

end Climb
end Kiln
