import Kiln.Proofs.Grammar.Grammatical

/-!
# Which operators join operands

Whether an operator joins operands can be told from the items before it: it does
exactly in the braces of a function.  Hence two grammatical documents that begin with
the same items mark these items alike.
-/

namespace Kiln

/-- Whether a token joins operands if it stands in braces. -/
def Token.joins (t : Token) : Bool := t.kind.precedence?.isSome

/-- Whether the items behind a token are in braces. -/
def Token.opensBraces (inBraces : Bool) (t : Token) : Bool :=
  t.isPunctuation .leftBrace || (inBraces && !t.isPunctuation .rightBrace)

/-- Marks the operators in braces. -/
def markFrom (inBraces : Bool) : List Item → List (Item × Bool)
  | [] => []
  | .directive d :: rest => (.directive d, false) :: markFrom inBraces rest
  | .token t :: rest =>
    (.token t, inBraces && t.joins) :: markFrom (t.opensBraces inBraces) rest

@[simp] theorem map_fst_markFrom (inBraces : Bool) (items : List Item) :
    (markFrom inBraces items).map Prod.fst = items := by
  induction items generalizing inBraces with
  | nil => rfl
  | cons item items ih => cases item <;> simp [markFrom, ih]

/-- The marks of items do not depend on what follows. -/
theorem exists_markFrom_append (inBraces : Bool) (items rest : List Item) :
    ∃ inBraces', markFrom inBraces (items ++ rest) =
      markFrom inBraces items ++ markFrom inBraces' rest := by
  induction items generalizing inBraces with
  | nil => exact ⟨inBraces, rfl⟩
  | cons item items ih =>
      cases item with
      | directive d =>
          obtain ⟨inBraces', h⟩ := ih inBraces
          exact ⟨inBraces', by simp [markFrom, h]⟩
      | token t =>
          obtain ⟨inBraces', h⟩ := ih (t.opensBraces inBraces)
          exact ⟨inBraces', by simp [markFrom, h]⟩

/-- Marked tokens as marked items. -/
def markedItems (marked : List (Token × Bool)) : List (Item × Bool) :=
  marked.map fun m => (.token m.1, m.2)

@[simp] theorem markedItems_append (ms ns : List (Token × Bool)) :
    markedItems (ms ++ ns) = markedItems ms ++ markedItems ns :=
  List.map_append

/-- Tokens that stand in braces or not are rightly marked, and lead to where the next
ones stand. -/
def MarksTo (inBraces inBraces' : Bool) (marked : List (Token × Bool)) : Prop :=
  ∀ rest, markFrom inBraces (itemsOf marked ++ rest) =
    markedItems marked ++ markFrom inBraces' rest

theorem marksTo_nil (inBraces : Bool) : MarksTo inBraces inBraces [] := fun _ => rfl

theorem MarksTo.append {a b c : Bool} {ms ns : List (Token × Bool)} (hm : MarksTo a b ms)
    (hn : MarksTo b c ns) : MarksTo a c (ms ++ ns) := by
  intro rest
  rw [itemsOf_append, List.append_assoc, hm, hn, markedItems_append, List.append_assoc]

theorem marksTo_singleton {inBraces inBraces' joins : Bool} {t : Token}
    (hjoins : (inBraces && t.joins) = joins) (hbraces : t.opensBraces inBraces = inBraces') :
    MarksTo inBraces inBraces' [(t, joins)] := by
  intro rest
  simp [markFrom, markedItems, hjoins, hbraces]

theorem MarksTo.flatMap {α : Type} {inBraces : Bool} {marked : α → List (Token × Bool)}
    {as : List α} (h : ∀ a ∈ as, MarksTo inBraces inBraces (marked a)) :
    MarksTo inBraces inBraces (as.flatMap marked) := by
  induction as with
  | nil => exact marksTo_nil inBraces
  | cons a as ih =>
      rw [List.forall_mem_cons] at h
      exact h.1.append (ih h.2)

/-! ## Heads -/

/-- Outside braces nothing joins, as long as none is opened. -/
theorem marksTo_unmarked {tokens : List Token}
    (h : ∀ t ∈ tokens, t.kind ≠ .punctuation .leftBrace) :
    MarksTo false false (unmarked tokens) := by
  induction tokens with
  | nil => exact marksTo_nil false
  | cons t tokens ih =>
      rw [List.forall_mem_cons] at h
      refine MarksTo.append (marksTo_singleton rfl ?_) (ih h.2)
      simp [Token.opensBraces, Token.isPunctuation, h.1]

theorem TypeName.Grammatical.kind_ne_leftBrace {type : TypeName} (h : type.Grammatical) :
    ∀ t ∈ type.tokens, t.kind ≠ .punctuation .leftBrace := by
  intro t ht
  rw [TypeName.tokens, List.mem_append, List.mem_singleton] at ht
  rcases ht with ht | rfl
  · have hstar := h.stars t ht
    simp only [Token.isStar, beq_iff_eq] at hstar
    simp [hstar]
  · have hbase := h.base
    simp only [Token.isIdentifier, beq_iff_eq] at hbase
    simp [hbase]

theorem kind_ne_leftBrace_of_isPunctuation {t : Token} {p : Punctuation}
    (h : t.isPunctuation p) (hp : p ≠ .leftBrace) : t.kind ≠ .punctuation .leftBrace := by
  simp only [Token.isPunctuation, beq_iff_eq] at h
  simp [h, hp]

theorem kind_ne_leftBrace_of_isIdentifier {t : Token} (h : t.isIdentifier) :
    t.kind ≠ .punctuation .leftBrace := by
  simp only [Token.isIdentifier, beq_iff_eq] at h
  simp [h]

theorem ReturnTypes.Grammatical.kind_ne_leftBrace {types : ReturnTypes}
    (h : types.Grammatical) : ∀ t ∈ types.tokens, t.kind ≠ .punctuation .leftBrace := by
  intro t ht
  simp only [ReturnTypes.tokens, List.cons_append, List.mem_cons, List.mem_append,
    List.mem_flatMap, ReturnType.tokens, Option.mem_toList, List.not_mem_nil, or_false] at ht
  rcases ht with rfl | ⟨listed, hlisted, ht | ht⟩ | rfl
  · exact kind_ne_leftBrace_of_isPunctuation h.opener (by simp)
  · exact (h.types listed hlisted).kind_ne_leftBrace t ht
  · have hcomma := h.commas.isPunctuation (List.mem_map_of_mem hlisted) ht
    exact kind_ne_leftBrace_of_isPunctuation hcomma (by simp)
  · exact kind_ne_leftBrace_of_isPunctuation h.closer (by simp)

theorem FunctionDecl.Grammatical.argument_kind_ne_leftBrace {f : FunctionDecl}
    (h : f.Grammatical) :
    ∀ t ∈ f.arguments.flatMap Argument.tokens, t.kind ≠ .punctuation .leftBrace := by
  intro t ht
  simp only [List.mem_flatMap, Argument.tokens, List.cons_append, List.mem_cons,
    List.mem_append, Option.mem_toList] at ht
  obtain ⟨a, ha, rfl | ht | ht⟩ := ht
  · exact kind_ne_leftBrace_of_isIdentifier (h.arguments a ha).name
  · exact (h.arguments a ha).type.kind_ne_leftBrace t ht
  · have hcomma := h.argumentCommas.isPunctuation (List.mem_map_of_mem ha) ht
    exact kind_ne_leftBrace_of_isPunctuation hcomma (by simp)

theorem FunctionDecl.Grammatical.marksTo_head {f : FunctionDecl} (h : f.Grammatical) :
    MarksTo false true (unmarked f.headTokens) := by
  rw [headTokens, unmarked_append]
  refine MarksTo.append (marksTo_unmarked ?_) (marksTo_singleton rfl ?_)
  · intro t ht
    simp only [List.mem_append, List.mem_cons, List.not_mem_nil, or_false] at ht
    rcases ht with (((rfl | rfl | rfl) | ht) | rfl) | ht
    · have hkeyword := h.keyword
      simp only [Token.isKeyword, beq_iff_eq] at hkeyword
      simp [hkeyword]
    · exact kind_ne_leftBrace_of_isIdentifier h.name
    · exact kind_ne_leftBrace_of_isPunctuation h.openParen (by simp)
    · exact h.argument_kind_ne_leftBrace t ht
    · exact kind_ne_leftBrace_of_isPunctuation h.closeParen (by simp)
    · rw [List.mem_flatMap] at ht
      obtain ⟨types, htypes, ht⟩ := ht
      exact (h.returns types (Option.mem_toList.1 htypes)).kind_ne_leftBrace t ht
  · simp [Token.opensBraces, h.openBrace]

/-! ## Bodies -/

theorem marksTo_of_kind {t : Token} {joins : Bool} (hjoins : t.joins = joins)
    (hbrace : t.kind ≠ .punctuation .rightBrace) : MarksTo true true [(t, joins)] := by
  apply marksTo_singleton (by simp [hjoins])
  simp [Token.opensBraces, Token.isPunctuation, hbrace]

theorem Expression.Grammatical.marksTo {e : Expression} (h : e.Grammatical) :
    MarksTo true true e.marked := by
  induction e with
  | leaf t =>
      have ht : t.isOperand := h
      cases hkind : t.kind <;>
        simp only [Token.isOperand, Kind.isOperand, hkind, Bool.false_eq_true] at ht <;>
        exact marksTo_of_kind (by simp [Token.joins, hkind, Kind.precedence?]) (by simp [hkind])
  | binary left operator right ihl ihr =>
      obtain ⟨hleft, hright, precedence, hprecedence, -, -⟩ := h
      have hkind : operator.kind ≠ .punctuation .rightBrace := by
        intro hbrace
        rw [hbrace] at hprecedence
        cases hprecedence
      have hoperator : MarksTo true true [(operator, true)] :=
        marksTo_of_kind (by simp [Token.joins, hprecedence]) hkind
      exact (ihl hleft).append (hoperator.append (ihr hright))

theorem ReturnStatement.Grammatical.marksTo {s : ReturnStatement} (h : s.Grammatical) :
    MarksTo true true s.marked := by
  have hkeyword := h.keyword
  simp only [Token.isKeyword, beq_iff_eq] at hkeyword
  refine MarksTo.append (marksTo_of_kind ?_ ?_) (MarksTo.flatMap ?_)
  · simp [Token.joins, hkeyword, Kind.precedence?]
  · simp [hkeyword]
  · intro v hv
    apply (h.values v hv).marksTo.append
    cases hcomma : v.comma with
    | none => exact marksTo_nil true
    | some t =>
        have ht := h.commas.isPunctuation (List.mem_map_of_mem hv) hcomma
        simp only [Token.isPunctuation, beq_iff_eq] at ht
        exact marksTo_of_kind (by simp [Token.joins, ht, Kind.precedence?]) (by simp [ht])

/-- In a function the marks are those of its operators in braces. -/
theorem FunctionDecl.Grammatical.marksTo {f : FunctionDecl} (h : f.Grammatical) :
    MarksTo false false f.marked := by
  refine (h.marksTo_head.append (MarksTo.flatMap fun s hs => (h.statements s hs).marksTo)).append
    ?_
  have hbrace := h.closeBrace
  simp only [Token.isPunctuation, beq_iff_eq] at hbrace
  apply marksTo_singleton
  · simp [Token.joins, hbrace, Kind.precedence?]
  · simp [Token.opensBraces, Token.isPunctuation, hbrace]

/-! ## Documents -/

theorem markFrom_declarations {ds : List Declaration} (h : ∀ d ∈ ds, d.Grammatical) :
    markFrom false (ds.flatMap Declaration.items) = ds.flatMap Declaration.marked := by
  induction ds with
  | nil => rfl
  | cons d ds ih =>
      rw [List.forall_mem_cons] at h
      rw [List.flatMap_cons, List.flatMap_cons, ← ih h.2]
      cases d with
      | directive d => rfl
      | function f =>
          have hf : f.Grammatical := h.1
          have hmarks := hf.marksTo (ds.flatMap Declaration.items)
          rw [f.itemsOf_marked] at hmarks
          exact hmarks

/-- The marks of a grammatical document are those of its operators in braces. -/
theorem Document.Grammatical.marked_eq {d : Document} (h : d.Grammatical) :
    d.marked = markFrom false d.items :=
  (markFrom_declarations h).symm

/-- The marks at the beginning of a grammatical document are those of its operators in
braces. -/
theorem Document.Grammatical.marks_eq {d : Document} (h : d.Grammatical)
    {ms more : List (Item × Bool)} (hmarked : d.marked = ms ++ more) :
    ms = markFrom false (ms.map Prod.fst) := by
  have hitems : d.items = ms.map Prod.fst ++ more.map Prod.fst := by
    rw [← d.map_fst_marked, hmarked, List.map_append]
  obtain ⟨inBraces, happend⟩ :=
    exists_markFrom_append false (ms.map Prod.fst) (more.map Prod.fst)
  rw [h.marked_eq, hitems, happend] at hmarked
  have hlength : (markFrom false (ms.map Prod.fst)).length = ms.length := by
    rw [← List.length_map Prod.fst, map_fst_markFrom, List.length_map]
  exact (List.append_inj_left hmarked hlength).symm

/-- Grammatical documents that begin with the same items mark these alike. -/
theorem Document.Grammatical.marks_congr {d d' : Document} (h : d.Grammatical)
    (h' : d'.Grammatical) {ms ns more more' : List (Item × Bool)} (hd : d.marked = ms ++ more)
    (hd' : d'.marked = ns ++ more') (hitems : ms.map Prod.fst = ns.map Prod.fst) : ms = ns := by
  rw [h.marks_eq hd, h'.marks_eq hd', hitems]

end Kiln
