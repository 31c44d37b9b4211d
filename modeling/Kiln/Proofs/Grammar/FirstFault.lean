import Kiln.Proofs.Grammar.Documents
import Kiln.Proofs.Grammar.Joining
import Mathlib.Control.Monad.Basic

/-!
# The first fault

Items that are no document are reported at the first item that no document could have
there.  The items before it begin a grammatical document, with it they begin none, and
the code says what stands there: the end of the items, a directive in a function, or a
token, which is missing an operand before it exactly behind an operator between
operands.
-/

namespace Kiln

/-! ## Beginnings of documents -/

/-- Items that a grammatical document begins with. -/
def ViablePrefix (items : List Item) : Prop :=
  ∃ d : Document, d.Grammatical ∧ items <+: d.items

/-- Items that end inside a function: complete declarations and a proper part of a
grammatical function. -/
def InsideFunction (items : List Item) : Prop :=
  ∃ (done : List Declaration) (f : FunctionDecl) (begun more : List Token),
    (∀ d ∈ done, d.Grammatical) ∧ f.Grammatical ∧ f.tokens = begun ++ more ∧ begun ≠ [] ∧
      more ≠ [] ∧ items = done.flatMap Declaration.items ++ begun.map .token

/-- Items that end in an operator which a grammatical document has between two
operands. -/
def EndsInInfix (items : List Item) : Prop :=
  ∃ (d : Document) (begun more : List (Item × Bool)),
    d.Grammatical ∧ d.marked = begun ++ more ∧ begun.map Prod.fst = items ∧
      endsInOperator begun = true

/-! ## Where reading declarations gets stuck -/

/-- Reading is rightly stuck behind complete declarations and the first tokens of a
function, none if a declaration is wanted. -/
structure StuckInside (items : List Item) (fault : SyntaxFault) (done : List Declaration)
    (before : List (Token × Bool)) : Prop where
  items_eq : items = done.flatMap Declaration.items ++ itemsOf before ++ fault.rest
  grammatical : ∀ d ∈ done, d.Grammatical
  begins : ∃ f more, f.Grammatical ∧ more ≠ [] ∧ FunctionDecl.marked f = before ++ more
  blocked : ∀ item ∈ fault.rest.head?, ∀ after,
    takeDeclarations (done.flatMap Declaration.items ++ itemsOf before ++ item :: after) =
      .error ⟨fault.wanted, item :: after⟩
  wanted : fault.wanted = .expression ↔ endsInOperator before = true

theorem FunctionDecl.map_fst_marked (f : FunctionDecl) : f.marked.map Prod.fst = f.tokens := by
  have hitems := f.itemsOf_marked
  have hmap : itemsOf f.marked = (f.marked.map Prod.fst).map .token := by
    rw [itemsOf, List.map_map]
    rfl
  rw [hmap] at hitems
  exact (List.map_inj_right fun _ _ h => Item.token.inj h).1 hitems

@[simp] theorem markedItems_eq_nil_iff {ms : List (Token × Bool)} :
    markedItems ms = [] ↔ ms = [] :=
  List.map_eq_nil_iff

@[simp] theorem endsInOperator_markedItems (ms : List (Token × Bool)) :
    endsInOperator (markedItems ms) = endsInOperator ms := by
  rcases List.eq_nil_or_concat ms with rfl | ⟨ms, m, rfl⟩
  · rfl
  · rw [List.concat_eq_append, markedItems_append, endsInOperator_concat]
    exact endsInOperator_concat _ _

/-- Complete declarations do not end in an operator. -/
theorem endsInOperator_declarations {ds : List Declaration} (h : ∀ d ∈ ds, d.Grammatical) :
    endsInOperator (ds.flatMap Declaration.marked) = false := by
  rcases List.eq_nil_or_concat ds with rfl | ⟨ds, d, rfl⟩
  · rfl
  · rw [List.concat_eq_append] at h ⊢
    rw [List.flatMap_append, List.flatMap_singleton, endsInOperator_append]
    cases d with
    | directive d => rfl
    | function f =>
        have hf : f.Grammatical := h (.function f) (by simp)
        have hclosed : endsInOperator (markedItems f.marked) = false := by
          rw [endsInOperator_markedItems]
          exact Phrase.readBy_takeFunction.closed f hf
        rw [if_neg (by simp [Declaration.marked, FunctionDecl.marked])]
        exact hclosed

/-- There is a grammatical function. -/
theorem exists_function : ∃ f : FunctionDecl, f.Grammatical :=
  ⟨⟨.ofKeyword .function, .ofText .identifier "", .ofPunctuation .leftParen, [],
      .ofPunctuation .rightParen, none, .ofPunctuation .leftBrace, [], .ofPunctuation .rightBrace⟩,
    by constructor <;> simp [Token.ofKeyword, Token.ofPunctuation, Token.ofText, Token.isKeyword,
      Token.isPunctuation, Token.isIdentifier, commasFit_nil]⟩

/-- A function that fails has not been read to its end. -/
theorem takeFunction_stuck {input : List Item} {fault : SyntaxFault}
    (h : takeFunction input = .error fault) :
    ∃ before, input = itemsOf before ++ fault.rest ∧
      Phrase.function.StuckBehind takeFunction fault before ∧
      ∃ f more, FunctionDecl.Grammatical f ∧ more ≠ [] ∧ f.marked = before ++ more := by
  obtain ⟨before, hinput, hstuck⟩ := Phrase.readBy_takeFunction.stuck input fault h
  obtain ⟨f, more, hfits, hmarked⟩ := hstuck.begins
  refine ⟨before, hinput, hstuck, f, more, hfits, ?_, hmarked⟩
  rintro rfl
  have hread : takeFunction input = .ok (f, fault.rest) := by
    refine (Phrase.readBy_takeFunction.accepted _ _ _).2 ⟨hfits, trivial, ?_⟩
    rw [hinput, Phrase.items, hmarked, List.append_nil]
  rw [h] at hread
  cases hread

/-- Reading declarations is always rightly stuck. -/
theorem takeDeclarations_stuck {items : List Item} {fault : SyntaxFault}
    (h : takeDeclarations items = .error fault) :
    ∃ done before, StuckInside items fault done before := by
  obtain ⟨done, t, rest, hdone, rfl, ⟨ht, rfl⟩ | ⟨ht, hf⟩⟩ :=
    exists_of_takeDeclarations_eq_error h
  · refine ⟨done, [], by simp, hdone, ?_, ?_, by simp⟩
    · obtain ⟨f, hf⟩ := exists_function
      exact ⟨f, f.marked, hf, by simp [FunctionDecl.marked], rfl⟩
    · rintro item ⟨⟩ after
      rw [itemsOf_nil, List.append_nil, takeDeclarations_flatMap_append hdone,
        takeDeclarations_foreign ht]
      rfl
  · obtain ⟨before, hinput, hstuck, hbegins⟩ := takeFunction_stuck hf
    refine ⟨done, before, ?_, hdone, hbegins, ?_, hstuck.wanted⟩
    · rw [hinput, List.append_assoc]
    · intro item hitem after
      have hhead : (itemsOf before ++ item :: after).head? = some (.token t) := by
        have hcongr : fault.rest.head? = (item :: after).head? := hitem
        rw [← head?_append_congr hcongr, ← hinput]
        rfl
      obtain ⟨more, hmore⟩ := List.head?_eq_some_iff.1 hhead
      have hblocked := hstuck.blocked item hitem after
      rw [hmore] at hblocked
      rw [List.append_assoc, takeDeclarations_flatMap_append hdone, hmore,
        takeDeclarations_error ht hblocked]
      rfl

namespace StuckInside

variable {items : List Item} {fault : SyntaxFault} {done : List Declaration}
  {before : List (Token × Bool)}

/-- The items before the fault. -/
theorem take_eq (h : StuckInside items fault done before) :
    items.take (items.length - fault.rest.length) =
      done.flatMap Declaration.items ++ itemsOf before := by
  have hlength : items.length - fault.rest.length =
      (done.flatMap Declaration.items ++ itemsOf before).length := by
    rw [h.items_eq, List.length_append, Nat.add_sub_cancel]
  rw [hlength]
  conv => lhs; rw [h.items_eq]
  exact List.take_left

theorem getElem?_eq (h : StuckInside items fault done before) :
    items[items.length - fault.rest.length]? = fault.rest.head? := by
  have hlength : items.length - fault.rest.length =
      (done.flatMap Declaration.items ++ itemsOf before).length := by
    rw [h.items_eq, List.length_append, Nat.add_sub_cancel]
  rw [hlength]
  conv => lhs; rw [h.items_eq]
  rw [List.getElem?_append_right (Nat.le_refl _), Nat.sub_self, List.head?_eq_getElem?]

/-- The complete declarations and the function that the tokens before the fault
begin. -/
theorem exists_document (h : StuckInside items fault done before) :
    ∃ (d : Document) (more : List (Item × Bool)), d.Grammatical ∧
      d.marked = done.flatMap Declaration.marked ++ markedItems before ++ more := by
  obtain ⟨f, more, hf, -, hmarked⟩ := h.begins
  refine ⟨⟨done ++ [.function f]⟩, markedItems more, ?_, ?_⟩
  · intro d hd
    rw [List.mem_append, List.mem_singleton] at hd
    rcases hd with hd | rfl
    · exact h.grammatical d hd
    · exact hf
  · rw [List.append_assoc, ← markedItems_append, ← hmarked]
    simp [Document.marked, Declaration.marked, markedItems]

theorem map_fst_marked (done : List Declaration) (before : List (Token × Bool)) :
    (done.flatMap Declaration.marked ++ markedItems before).map Prod.fst =
      done.flatMap Declaration.items ++ itemsOf before := by
  rw [List.map_append, List.map_flatMap]
  simp [Declaration.map_fst_marked, markedItems, itemsOf]

theorem viablePrefix (h : StuckInside items fault done before) :
    ViablePrefix (done.flatMap Declaration.items ++ itemsOf before) := by
  obtain ⟨d, more, hd, hmarked⟩ := h.exists_document
  refine ⟨d, hd, more.map Prod.fst, ?_⟩
  have hitems := congrArg (List.map Prod.fst) hmarked
  rw [List.map_append, map_fst_marked, d.map_fst_marked] at hitems
  exact hitems.symm

/-- With the item at fault no document goes on. -/
theorem not_viablePrefix (h : StuckInside items fault done before) {item : Item}
    (hitem : item ∈ fault.rest.head?) :
    ¬ViablePrefix (done.flatMap Declaration.items ++ itemsOf before ++ [item]) := by
  rintro ⟨d, hd, after, hitems⟩
  have hread : takeDeclarations d.items = .ok d.declarations :=
    takeDeclarations_eq_ok_iff.2 ⟨hd, rfl⟩
  rw [← hitems, List.append_assoc, List.singleton_append, h.blocked item hitem after] at hread
  cases hread

/-- Between declarations any directive can stand. -/
theorem before_ne_nil (h : StuckInside items fault done before) {d : Directive}
    (hd : Item.directive d ∈ fault.rest.head?) : before ≠ [] := by
  rintro rfl
  have hblocked := h.blocked (.directive d) hd []
  rw [itemsOf_nil, List.append_nil, takeDeclarations_flatMap_append h.grammatical,
    takeDeclarations_directive, takeDeclarations_nil] at hblocked
  cases hblocked

theorem insideFunction (h : StuckInside items fault done before) (hne : before ≠ []) :
    InsideFunction (done.flatMap Declaration.items ++ itemsOf before) := by
  obtain ⟨f, more, hf, hmore, hmarked⟩ := h.begins
  refine ⟨done, f, before.map Prod.fst, more.map Prod.fst, h.grammatical, hf, ?_, ?_, ?_, ?_⟩
  · rw [← f.map_fst_marked, hmarked, List.map_append]
  · simpa using hne
  · simpa using hmore
  · simp [itemsOf]

/-- The tokens before the fault end in an operator between operands in one document
exactly if they do so in all of them. -/
theorem endsInInfix_iff (h : StuckInside items fault done before) :
    EndsInInfix (done.flatMap Declaration.items ++ itemsOf before) ↔
      endsInOperator before = true := by
  obtain ⟨d, more, hd, hmarked⟩ := h.exists_document
  have hlast : endsInOperator (done.flatMap Declaration.marked ++ markedItems before) =
      endsInOperator before := by
    rw [endsInOperator_append, endsInOperator_markedItems]
    split
    · next hnil =>
        rw [markedItems_eq_nil_iff] at hnil
        rw [hnil]
        exact endsInOperator_declarations h.grammatical
    · rfl
  constructor
  · rintro ⟨d', begun, more', hd', hmarked', hitems, hoperator⟩
    rw [← map_fst_marked] at hitems
    rw [hd'.marks_congr hd hmarked' hmarked hitems, hlast] at hoperator
    exact hoperator
  · intro hoperator
    exact ⟨d, _, more, hd, hmarked, map_fst_marked _ _, hlast.trans hoperator⟩

end StuckInside

/-! ## Reports -/

/-- The note on a directive in a function. -/
def nestedNote : String := "directives are only allowed at the top level"

/-- A report of the first item, the one at index `k`, that no document could have
there. -/
structure FirstFault (file : File) (items : List Item) (d : Diagnostic) (k : Nat) : Prop where
  le_length : k ≤ items.length
  viable : ViablePrefix (items.take k)
  blocked : k < items.length → ¬ViablePrefix (items.take (k + 1))
  incomplete : k = items.length → ¬∃ whole : Document, whole.Grammatical ∧ whole.items = items
  excerpt : d.main.excerpt = (items[k]?.map Item.excerpt).getD file.endExcerpt
  ended : d.main.code = some .unexpectedEnd ↔ k = items.length
  nested : d.main.code = some .nestedDirective ↔
    (∃ directive, items[k]? = some (.directive directive)) ∧ InsideFunction (items.take k)
  note : d.main.note = some nestedNote ↔
    (∃ directive, items[k]? = some (.directive directive)) ∧ InsideFunction (items.take k)
  missing : d.main.code = some .missingExpression ↔
    (∃ t, items[k]? = some (.token t)) ∧ EndsInInfix (items.take k)
  unexpected : d.main.code = some .unexpectedToken ↔
    (∃ t, items[k]? = some (.token t)) ∧ ¬EndsInInfix (items.take k)

namespace SyntaxFault

variable (fault : SyntaxFault) (ending : Excerpt)

theorem report_code : (fault.report ending).main.code = some fault.code := by
  unfold report
  dsimp only
  split <;> rfl

theorem report_excerpt :
    (fault.report ending).main.excerpt = (fault.rest.head?.map Item.excerpt).getD ending := by
  obtain ⟨wanted, rest⟩ := fault
  cases rest with
  | nil => rfl
  | cons item rest => cases item <;> rfl

theorem report_note_iff :
    (fault.report ending).main.note = some nestedNote ↔
      ∃ directive, fault.rest.head? = some (.directive directive) := by
  obtain ⟨wanted, rest⟩ := fault
  cases rest with
  | nil => simp [report, Diagnostic.error]
  | cons item rest =>
      cases item with
      | token t => simp [report, Diagnostic.error]
      | directive d => simp [report, Diagnostic.withNote, nestedNote]

/-- The code of a fault goes by what comes next: nothing, a directive, or a token where an
operand or something else is wanted. -/
theorem code_cases :
    (fault.rest.head? = none ∧ fault.code = .unexpectedEnd) ∨
      (∃ d, fault.rest.head? = some (.directive d) ∧ fault.code = .nestedDirective) ∨
      (∃ t, fault.rest.head? = some (.token t) ∧ fault.wanted = .expression ∧
        fault.code = .missingExpression) ∨
      ∃ t, fault.rest.head? = some (.token t) ∧ fault.wanted ≠ .expression ∧
        fault.code = .unexpectedToken := by
  obtain ⟨wanted, rest⟩ := fault
  cases rest with
  | nil => exact Or.inl ⟨rfl, rfl⟩
  | cons item rest =>
      cases item with
      | directive d => exact Or.inr (Or.inl ⟨d, rfl, rfl⟩)
      | token t =>
          by_cases hwanted : wanted = .expression
          · exact Or.inr (Or.inr (Or.inl ⟨t, rfl, hwanted, if_pos hwanted⟩))
          · exact Or.inr (Or.inr (Or.inr ⟨t, rfl, hwanted, if_neg hwanted⟩))

theorem code_eq_unexpectedEnd_iff : fault.code = .unexpectedEnd ↔ fault.rest = [] := by
  rw [← List.head?_eq_none_iff]
  rcases fault.code_cases with ⟨hnext, hcode⟩ | ⟨d, hnext, hcode⟩ | ⟨t, hnext, hwanted, hcode⟩ |
    ⟨t, hnext, hwanted, hcode⟩ <;> simp [hnext, hcode]

theorem code_eq_nestedDirective_iff :
    fault.code = .nestedDirective ↔
      ∃ directive, fault.rest.head? = some (.directive directive) := by
  rcases fault.code_cases with ⟨hnext, hcode⟩ | ⟨d, hnext, hcode⟩ | ⟨t, hnext, hwanted, hcode⟩ |
    ⟨t, hnext, hwanted, hcode⟩ <;> simp [hnext, hcode]

theorem code_eq_missingExpression_iff :
    fault.code = .missingExpression ↔
      (∃ t, fault.rest.head? = some (.token t)) ∧ fault.wanted = .expression := by
  rcases fault.code_cases with ⟨hnext, hcode⟩ | ⟨d, hnext, hcode⟩ | ⟨t, hnext, hwanted, hcode⟩ |
    ⟨t, hnext, hwanted, hcode⟩ <;> simp [*]

theorem code_eq_unexpectedToken_iff :
    fault.code = .unexpectedToken ↔
      (∃ t, fault.rest.head? = some (.token t)) ∧ fault.wanted ≠ .expression := by
  rcases fault.code_cases with ⟨hnext, hcode⟩ | ⟨d, hnext, hcode⟩ | ⟨t, hnext, hwanted, hcode⟩ |
    ⟨t, hnext, hwanted, hcode⟩ <;> simp [*]

end SyntaxFault

theorem StuckInside.firstFault {items : List Item} {fault : SyntaxFault}
    {done : List Declaration} {before : List (Token × Bool)}
    (hstuck : StuckInside items fault done before) (h : takeDeclarations items = .error fault)
    (file : File) :
    FirstFault file items (fault.report file.endExcerpt)
      (items.length - fault.rest.length) := by
  have hlength : fault.rest.length ≤ items.length := by
    have hitems := congrArg List.length hstuck.items_eq
    rw [List.length_append] at hitems
    omega
  -- a directive is at fault in a function only
  have hnested : (∃ directive, fault.rest.head? = some (.directive directive)) ↔
      (∃ directive, fault.rest.head? = some (.directive directive)) ∧
        InsideFunction (done.flatMap Declaration.items ++ itemsOf before) := by
    constructor
    · rintro ⟨directive, hdirective⟩
      have hne := hstuck.before_ne_nil hdirective
      exact ⟨⟨directive, hdirective⟩, hstuck.insideFunction hne⟩
    · exact And.left
  have hwanted := hstuck.wanted.trans hstuck.endsInInfix_iff.symm
  refine ⟨Nat.sub_le _ _, ?_, ?_, ?_, ?_, ?_, ?_, ?_, ?_, ?_⟩
  · rw [hstuck.take_eq]
    exact hstuck.viablePrefix
  · intro hlt
    have hitem := List.getElem?_eq_getElem hlt
    rw [List.take_add_one, hstuck.take_eq, hitem, Option.toList_some]
    rw [hstuck.getElem?_eq] at hitem
    exact hstuck.not_viablePrefix hitem
  · rintro - ⟨whole, hwhole, rfl⟩
    have hread : takeDeclarations whole.items = .ok whole.declarations :=
      takeDeclarations_eq_ok_iff.2 ⟨hwhole, rfl⟩
    rw [h] at hread
    cases hread
  · rw [hstuck.getElem?_eq, fault.report_excerpt]
  · rw [fault.report_code, Option.some_inj, fault.code_eq_unexpectedEnd_iff,
      ← List.length_eq_zero_iff]
    omega
  · rw [hstuck.getElem?_eq, hstuck.take_eq, fault.report_code, Option.some_inj,
      fault.code_eq_nestedDirective_iff]
    exact hnested
  · rw [hstuck.getElem?_eq, hstuck.take_eq, fault.report_note_iff]
    exact hnested
  · rw [hstuck.getElem?_eq, hstuck.take_eq, fault.report_code, Option.some_inj,
      fault.code_eq_missingExpression_iff, hwanted]
  · rw [hstuck.getElem?_eq, hstuck.take_eq, fault.report_code, Option.some_inj,
      fault.code_eq_unexpectedToken_iff, ne_eq, hwanted]

/-- Items that are refused are reported at the first one that no document could have
there. -/
theorem File.exists_firstFault {file : File} {items : List Item} {d : Diagnostic}
    (h : file.documentOfItems items = .error d) : ∃ k, FirstFault file items d k := by
  rw [documentOfItems, Document.ofItems] at h
  cases hread : takeDeclarations items with
  | ok ds =>
      rw [hread] at h
      cases h
  | error fault =>
      rw [hread] at h
      cases h
      obtain ⟨done, before, hstuck⟩ := takeDeclarations_stuck hread
      exact ⟨_, hstuck.firstFault hread file⟩

/-- Behind the infix operator in `fun f() { return 1 + }` an operand is missing, and the brace that
stands there is at fault. -/
theorem File.exists_firstFault_missingOperand :
    let file := File.ofText "main.kn" "fun f() { return 1 + }"
    let brace := Item.token (.ofPunctuation .rightBrace)
    let items := [Item.token (.ofKeyword .function), .token (.ofText .identifier "f"),
      .token (.ofPunctuation .leftParen), .token (.ofPunctuation .rightParen),
      .token (.ofPunctuation .leftBrace), .token (.ofKeyword .yield),
      .token (.ofText (.integer .decimal) "1"), .token (.ofOperator .plus), brace]
    let d := SyntaxFault.report ⟨.expression, [brace]⟩ file.endExcerpt
    d.main.code = some .missingExpression ∧
      ∃ k < items.length, FirstFault file items d k ∧ EndsInInfix (items.take k) := by
  intro file brace items d
  have htake : takeFunction items = .error ⟨.expression, [brace]⟩ := by decide +kernel
  have hread : takeDeclarations items = .error ⟨.expression, [brace]⟩ :=
    takeDeclarations_error rfl htake
  have hrefused : file.documentOfItems items = .error d := by
    rw [documentOfItems, Document.ofItems, hread]
    rfl
  have hcode : d.main.code = some .missingExpression := rfl
  obtain ⟨k, hfault⟩ := exists_firstFault hrefused
  have hne : k ≠ items.length := by
    intro hlength
    have hended := hfault.ended.2 hlength
    rw [hcode] at hended
    cases hended
  exact ⟨hcode, k, Nat.lt_of_le_of_ne hfault.le_length hne, hfault, (hfault.missing.1 hcode).2⟩

end Kiln
