import Kiln.Proofs.Grammar.Phrase

/-!
# Reading repeated phrases

Tokens of one sort in a row, and elements with commas between them.  A list of
elements is over behind an element without a comma, or, where a trailing comma is
allowed, in front of anything that begins no further element.
-/

namespace Kiln

variable {α : Type}

/-! ## Tokens in a row -/

theorem takeTokens_eq_iff {accept : Token → Bool} {input rest : List Item} {ts : List Token} :
    takeTokens accept input = (ts, rest) ↔
      (∀ t ∈ ts, accept t) ∧ isNext accept rest.head? = false ∧
        input = ts.map .token ++ rest := by
  constructor
  · intro h
    have happend := takeTokens_append accept input
    rw [h] at happend
    refine ⟨?_, ?_, happend⟩
    · clear happend
      fun_induction takeTokens accept input generalizing ts with
      | case1 t input' ht ts' rest' h' ih =>
          cases h
          intro s hs
          rcases List.mem_cons.1 hs with rfl | hs
          · exact ht
          · exact ih h' s hs
      | case2 => cases h; simp
      | case3 => cases h; simp
    · clear happend
      fun_induction takeTokens accept input generalizing ts with
      | case1 t input' ht ts' rest' h' ih =>
          cases h
          exact ih h'
      | case2 t input' ht => cases h; simpa using ht
      | case3 input' hinput =>
          cases h
          cases rest with
          | nil => rfl
          | cons item rest =>
              cases item with
              | token t => exact (hinput t rest rfl).elim
              | directive d => rfl
  · rintro ⟨haccept, hnext, rfl⟩
    induction ts with
    | nil =>
        cases rest with
        | nil => rfl
        | cons item rest =>
            cases item with
            | token t => simp_all [takeTokens]
            | directive d => rfl
    | cons t ts ih =>
        have ht : accept t = true := haccept t (by simp)
        have hts := ih fun s hs => haccept s (List.mem_cons_of_mem _ hs)
        simp [takeTokens, ht, hts]

namespace Phrase

/-- As many tokens in a row as are accepted. -/
def many (accept : Token → Bool) : Phrase (List Token) where
  Fits ts := ∀ t ∈ ts, accept t
  marked := unmarked
  EndsBefore _ next := isNext accept next = false

/-- Taking tokens never fails. -/
theorem readBy_takeTokens (accept : Token → Bool) :
    (many accept).ReadBy fun input => .ok (takeTokens accept input) := by
  refine ⟨?_, ?_, fun ts _ => endsInOperator_unmarked ts⟩
  · intro input ts rest
    rw [Except.ok.injEq, takeTokens_eq_iff]
    simp [many, items]
  · intro input fault h
    cases h

end Phrase

/-! ## Elements with commas -/

/-- Elements and the commas behind them, up to where a list may end. -/
def ListedFit (Fits : α → Prop) (trailing : Bool) : List (α × Option Token) → Prop
  | [] => trailing
  | (a, none) :: listed => Fits a ∧ listed = []
  | (a, some comma) :: listed =>
    Fits a ∧ comma.isPunctuation .comma ∧ ListedFit Fits trailing listed

/-- Listed elements fit if all of them do and their commas stand as they should. -/
theorem listedFit_iff {Fits : α → Prop} {trailing : Bool} {listed : List (α × Option Token)} :
    ListedFit Fits trailing listed ↔
      (∀ entry ∈ listed, Fits entry.1) ∧ CommasFit trailing (listed.map Prod.snd) ∧
        (listed = [] → trailing) := by
  induction listed with
  | nil => simp [ListedFit, commasFit_nil]
  | cons entry listed ih =>
      obtain ⟨a, comma⟩ := entry
      cases listed with
      | nil =>
          rw [List.map_singleton, commasFit_singleton]
          cases comma <;> simp [ListedFit, and_comm]
      | cons next listed =>
          rw [List.map_cons, List.map_cons, commasFit_cons_cons, ← List.map_cons]
          cases comma with
          | none => simp [ListedFit]
          | some comma =>
              rw [ListedFit, ih]
              simp only [List.forall_mem_cons, Option.mem_some_iff, reduceCtorEq, false_imp_iff,
                and_true, exists_eq_left']
              constructor
              · rintro ⟨ha, hcomma, hlisted, hfit⟩
                exact ⟨⟨ha, hlisted⟩, hcomma, hfit⟩
              · rintro ⟨⟨ha, hlisted⟩, hcomma, hfit⟩
                exact ⟨ha, hcomma, hlisted, hfit⟩

section Listed

variable {goesOn : List Item → Bool} {element : List Item → Parsed α}
  {shrinks : ∀ ⦃items : List Item⦄ ⦃a : α⦄ ⦃rest : List Item⦄,
    element items = .ok (a, rest) → rest.length < items.length}
  {input : List Item}

theorem takeListed_stop (hgo : goesOn input = false) :
    takeListed goesOn element shrinks input = .ok ([], input) := by
  rw [takeListed]
  simp [hgo]

theorem takeListed_error {fault : SyntaxFault} (hgo : goesOn input = true)
    (h : element input = .error fault) :
    takeListed goesOn element shrinks input = .error fault := by
  rw [takeListed, if_pos hgo]
  split
  · next h' => rw [h] at h'; cases h'; rfl
  · next h' => rw [h] at h'; cases h'

/-- Without a comma behind it an element is the last one. -/
theorem takeListed_last {a : α} {after : List Item} (hgo : goesOn input = true)
    (h : element input = .ok (a, after))
    (hcomma : isNext (Token.isPunctuation .comma) after.head? = false) :
    takeListed goesOn element shrinks input = .ok ([(a, none)], after) := by
  have htake : takeToken? (Token.isPunctuation .comma) after = (none, after) := by
    cases after with
    | nil => rfl
    | cons item after =>
        cases item with
        | token t => simp_all [takeToken?]
        | directive d => rfl
  rw [takeListed, if_pos hgo]
  split
  · next h' => rw [h] at h'; cases h'
  · next a' after' h' =>
      rw [h] at h'
      cases h'
      split
      · next rest hrest => rw [htake] at hrest; cases hrest; rfl
      · next hrest => rw [htake] at hrest; cases hrest

/-- Behind a comma the list goes on. -/
theorem takeListed_comma {a : α} {comma : Token} {after : List Item} (hgo : goesOn input = true)
    (h : element input = .ok (a, .token comma :: after))
    (hcomma : comma.isPunctuation .comma = true) :
    takeListed goesOn element shrinks input =
      (takeListed goesOn element shrinks after).mapValue ((a, some comma) :: ·) := by
  have htake : takeToken? (Token.isPunctuation .comma) (.token comma :: after) =
      (some comma, after) := by
    simp [takeToken?, hcomma]
  rw [takeListed, if_pos hgo]
  split
  · next h' => rw [h] at h'; cases h'
  · next a' after' h' =>
      rw [h] at h'
      cases h'
      split
      · next rest hrest => rw [htake] at hrest; cases hrest
      · next hrest => rw [htake] at hrest; cases hrest; rfl

/-- Induction along a list of elements: nothing begins one, an element fails, an
element is the last one, or a comma follows it and the list goes on. -/
theorem takeListed_induct (goesOn : List Item → Bool) {motive : List Item → Prop}
    (shrinks : ∀ ⦃items : List Item⦄ ⦃a : α⦄ ⦃rest : List Item⦄,
      element items = .ok (a, rest) → rest.length < items.length)
    (stop : ∀ input, goesOn input = false → motive input)
    (failed : ∀ input fault, goesOn input = true → element input = .error fault → motive input)
    (last : ∀ input a after, goesOn input = true → element input = .ok (a, after) →
      isNext (Token.isPunctuation .comma) after.head? = false → motive input)
    (comma : ∀ input a c after, goesOn input = true → element input = .ok (a, .token c :: after) →
      c.isPunctuation .comma = true → motive after → motive input)
    (input : List Item) : motive input := by
  induction hlen : input.length using Nat.strongRecOn generalizing input with
  | ind n ih =>
      cases hgo : goesOn input with
      | false => exact stop input hgo
      | true =>
          cases ha : element input with
          | error fault => exact failed input fault hgo ha
          | ok r =>
              obtain ⟨a, after⟩ := r
              cases hcomma : isNext (Token.isPunctuation .comma) after.head? with
              | false => exact last input a after hgo ha hcomma
              | true =>
                  obtain ⟨c, after, rfl, hc⟩ := exists_of_isNext hcomma
                  have hlt : after.length < n := by
                    have := shrinks ha
                    simp only [List.length_cons] at this
                    omega
                  exact comma input a c after hgo ha hc (ih _ hlt after rfl)

end Listed

namespace Phrase

/-- The tokens of listed elements. -/
def listedMarked (p : Phrase α) (listed : List (α × Option Token)) : List (Token × Bool) :=
  listed.flatMap fun entry => p.marked entry.1 ++ unmarked entry.2.toList

/-- A list is over where its last element is, if that has no comma, and otherwise
where no further element begins. -/
def ListedEnds (p : Phrase α) (goesOn : Option Item → Bool) :
    List (α × Option Token) → Option Item → Prop
  | [], next => goesOn next = false
  | (a, none) :: _, next =>
    p.EndsBefore a next ∧ isNext (Token.isPunctuation .comma) next = false
  | (_, some _) :: listed, next => p.ListedEnds goesOn listed next

/-- Elements with commas between them; `goesOn` tells the items that begin an
element. -/
def listed (p : Phrase α) (trailing : Bool) (goesOn : Option Item → Bool) :
    Phrase (List (α × Option Token)) where
  Fits := ListedFit p.Fits trailing
  marked := p.listedMarked
  EndsBefore := p.ListedEnds goesOn

@[simp] theorem listedMarked_nil (p : Phrase α) : p.listedMarked [] = [] := rfl

@[simp] theorem listedMarked_cons (p : Phrase α) (entry : α × Option Token)
    (listed : List (α × Option Token)) :
    p.listedMarked (entry :: listed) =
      p.marked entry.1 ++ unmarked entry.2.toList ++ p.listedMarked listed :=
  rfl

/-- What lists of elements ask of their elements: `goesOn` holds where one begins,
it fails only where the list may be over, and a comma ends an element. -/
structure Separable (p : Phrase α) (trailing : Bool) (goesOn : Option Item → Bool) : Prop where
  begins : ∀ {a rest}, p.Fits a → goesOn (p.items a ++ rest).head? = true
  stops : ∀ {next}, goesOn next = false → trailing
  comma : ∀ {a : α} {comma : Token}, p.Fits a → comma.isPunctuation .comma →
    p.EndsBefore a (some (.token comma))

section

variable {p : Phrase α} {trailing : Bool} {goesOnNext : Option Item → Bool}
  {goesOn : List Item → Bool} {element : List Item → Parsed α}
  {shrinks : ∀ ⦃items : List Item⦄ ⦃a : α⦄ ⦃rest : List Item⦄,
    element items = .ok (a, rest) → rest.length < items.length}

/-- Elements that can be separated are accepted as a list. -/
theorem AcceptedBy.listed (hp : p.AcceptedBy element)
    (hsep : p.Separable trailing goesOnNext)
    (hgo : ∀ input, goesOn input = goesOnNext input.head?) :
    (p.listed trailing goesOnNext).AcceptedBy (takeListed goesOn element shrinks) := by
  intro input listed rest
  constructor
  · intro h
    induction input using takeListed_induct goesOn shrinks generalizing listed rest with
    | stop input hgoes =>
        rw [takeListed_stop hgoes] at h
        cases h
        rw [hgo] at hgoes
        exact ⟨hsep.stops hgoes, hgoes, rfl⟩
    | failed input fault hgoes ha =>
        rw [takeListed_error hgoes ha] at h
        cases h
    | last input a after hgoes ha hcomma =>
        obtain ⟨hfits, hends, hinput⟩ := (hp _ _ _).1 ha
        rw [takeListed_last hgoes ha hcomma] at h
        cases h
        refine ⟨⟨hfits, rfl⟩, ⟨hends, hcomma⟩, ?_⟩
        simp [hinput, items, Phrase.listed, unmarked]
    | comma input a c after hgoes ha hc ih =>
        obtain ⟨hfits, -, hinput⟩ := (hp _ _ _).1 ha
        rw [takeListed_comma hgoes ha hc, Parsed.mapValue_eq_ok_iff] at h
        obtain ⟨more, hmore, rfl⟩ := h
        obtain ⟨hmfits, hmends, hafter⟩ := ih _ _ hmore
        refine ⟨⟨hfits, hc, hmfits⟩, hmends, ?_⟩
        simp [hinput, hafter, items, Phrase.listed, unmarked]
  · rintro ⟨hfits, hends, rfl⟩
    induction listed with
    | nil => exact takeListed_stop ((hgo _).trans hends)
    | cons entry listed ih =>
        obtain ⟨a, comma⟩ := entry
        cases comma with
        | none =>
            obtain ⟨ha, rfl⟩ := hfits
            have hinput : (p.listed trailing goesOnNext).items [(a, none)] = p.items a := by
              simp [items, Phrase.listed, unmarked]
            rw [hinput]
            refine takeListed_last ?_ ?_ hends.2
            · rw [hgo, hsep.begins ha]
            · exact (hp _ _ _).2 ⟨ha, hends.1, rfl⟩
        | some comma =>
            obtain ⟨ha, hcomma, hmore⟩ := hfits
            have hinput : (p.listed trailing goesOnNext).items ((a, some comma) :: listed) =
                p.items a ++ .token comma :: (p.listed trailing goesOnNext).items listed := by
              simp [items, Phrase.listed, unmarked]
            rw [hinput, List.append_assoc, List.cons_append, takeListed_comma _ _ hcomma,
              ih hmore hends]
            · rfl
            · rw [hgo, hsep.begins ha]
            · exact (hp _ _ _).2 ⟨ha, hsep.comma ha hcomma, rfl⟩

/-- A list of elements gets stuck where one of them does. -/
theorem AcceptedBy.rightlyStuck_listed (hp : p.AcceptedBy element)
    (hstuck : ∀ input, goesOn input = true → p.RightlyStuck element input)
    (hsep : p.Separable trailing goesOnNext)
    (hgo : ∀ input, goesOn input = goesOnNext input.head?) (input : List Item) :
    (p.listed trailing goesOnNext).RightlyStuck (takeListed goesOn element shrinks) input := by
  intro fault h
  induction input using takeListed_induct goesOn shrinks with
  | stop input hgoes =>
      rw [takeListed_stop hgoes] at h
      cases h
  | last input a after hgoes ha hcomma =>
      rw [takeListed_last hgoes ha hcomma] at h
      cases h
  | failed input fault' hgoes ha =>
      rw [takeListed_error hgoes ha] at h
      cases h
      obtain ⟨before, hinput, ⟨a, more, hfits, hmarked⟩, hblocked, hwanted⟩ :=
        hstuck input hgoes fault ha
      refine ⟨before, hinput, ⟨[(a, none)], more, ⟨hfits, rfl⟩, ?_⟩, ?_, hwanted⟩
      · simp [Phrase.listed, hmarked, unmarked]
      · intro item hitem after
        have hhead : fault.rest.head? = (item :: after).head? := hitem
        refine takeListed_error ?_ (hblocked item hitem after)
        rw [hgo, ← head?_append_congr hhead, ← hinput, ← hgo, hgoes]
  | comma input a c after hgoes ha hc ih =>
      rw [takeListed_comma hgoes ha hc, Parsed.mapValue_eq_error_iff] at h
      obtain ⟨before, rfl, ⟨listed, more, hfits, hmarked⟩, hblocked, hwanted⟩ := ih h
      obtain ⟨hafits, -, rfl⟩ := (hp _ _ _).1 ha
      refine ⟨p.marked a ++ (c, false) :: before, by simp [items], ?_, ?_, ?_⟩
      · refine ⟨(a, some c) :: listed, more, ⟨hafits, hc, hfits⟩, ?_⟩
        simp only [Phrase.listed] at hmarked
        simp [Phrase.listed, hmarked, unmarked]
      · intro item hitem after
        have helement : element (p.items a ++ .token c :: (itemsOf before ++ item :: after)) =
            .ok (a, .token c :: (itemsOf before ++ item :: after)) :=
          hp.congr ha rfl
        rw [items] at helement
        rw [itemsOf_append, itemsOf_cons, List.append_assoc, List.cons_append,
          takeListed_comma _ helement hc, Parsed.mapValue_eq_error_iff]
        · exact hblocked item hitem after
        · rw [hgo]
          exact hsep.begins hafits
      · rw [endsInOperator_append, if_neg (List.cons_ne_nil _ _), hwanted, ← List.singleton_append,
          endsInOperator_append]
        split
        · next hnil => simp [hnil, endsInOperator]
        · rfl

theorem endsInOperator_listed (hclosed : ∀ a, p.Fits a → endsInOperator (p.marked a) = false)
    {listed : List (α × Option Token)} (hfits : (p.listed trailing goesOnNext).Fits listed) :
    endsInOperator ((p.listed trailing goesOnNext).marked listed) = false := by
  induction listed with
  | nil => rfl
  | cons entry listed ih =>
      obtain ⟨a, comma⟩ := entry
      cases comma with
      | none =>
          obtain ⟨ha, rfl⟩ := hfits
          simpa [Phrase.listed, unmarked] using hclosed a ha
      | some comma =>
          have hlast := ih hfits.2.2
          simp only [Phrase.listed] at hlast
          simp only [Phrase.listed, listedMarked_cons, endsInOperator_append, hlast]
          simp [unmarked, endsInOperator]

/-- Elements that can be separated are read as a list, if nothing is tried as an
element where none begins. -/
theorem AcceptedBy.readBy_listed (hp : p.AcceptedBy element)
    (hstuck : ∀ input, goesOn input = true → p.RightlyStuck element input)
    (hclosed : ∀ a, p.Fits a → endsInOperator (p.marked a) = false)
    (hsep : p.Separable trailing goesOnNext)
    (hgo : ∀ input, goesOn input = goesOnNext input.head?) :
    (p.listed trailing goesOnNext).ReadBy (takeListed goesOn element shrinks) where
  accepted := hp.listed hsep hgo
  stuck := hp.rightlyStuck_listed hstuck hsep hgo
  closed _ := endsInOperator_listed hclosed

end

end Phrase
end Kiln
