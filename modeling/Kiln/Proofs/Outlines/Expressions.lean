import Kiln.Proofs.Comparison.Produced
import Kiln.Proofs.Outlines.Places
import Kiln.Proofs.RoundTrip.Built

/-!
# Outlines of expressions are unambiguous

In the outline of an expression a blank or a closing parenthesis comes behind every operand and
every operator, and what is read there as a token ends in front of it.  So it can be told where
the text of an operand ends, whatever stands in it, and the outline of no other expression goes on
like this one.
-/

namespace Kiln

/-! ## Texts of tokens in front of separators -/

theorem separates_space : Separates ' ' := separates_of_isBlank (by decide +kernel)

theorem separates_closeParen : Separates ')' := by
  constructor <;> decide +kernel

theorem Token.isSpelled_of_operator {t : Token} {o : Operator} (hkind : t.kind = .operator o)
    (htext : t.text = o.text) : t.IsSpelled := by
  rw [Token.IsSpelled, hkind, htext]
  exact isLexeme_operator o

/-- Two tokens in front of separators cannot be confused. -/
theorem Token.IsSpelled.append_inj {t u : Token} {m n : List Char} (ht : t.IsSpelled)
    (hu : u.IsSpelled) (hm : ∀ c ∈ m.head?, Separates c) (hn : ∀ c ∈ n.head?, Separates c)
    (h : t.text.toList ++ m = u.text.toList ++ n) : t.detach = u.detach ∧ m = n := by
  have hreads := ht.readToken_append hm
  rw [h, hu.readToken_append hn] at hreads
  have hlength : u.text.toList.length = t.text.toList.length := congrArg Reading.length hreads
  have hkind : u.kind = t.kind := Except.ok.inj (congrArg Reading.outcome hreads)
  obtain ⟨htext, hrest⟩ := List.append_inj h hlength.symm
  refine ⟨?_, hrest⟩
  rw [Token.detach, Token.detach, hkind, String.toList_inj.1 htext]

/-- No operand begins with a parenthesis. -/
theorem IsLexeme.append_ne_openParen {kind : Kind} {text : String} (h : IsLexeme kind text)
    (hoperand : kind.isOperand = true) (m n : List Char) : text.toList ++ m ≠ '(' :: n := by
  intro heq
  have houtcome := congrArg Reading.outcome h.reads
  cases hcs : text.toList with
  | nil =>
      rw [hcs] at houtcome
      cases houtcome
  | cons c cs =>
      rw [hcs] at heq houtcome
      cases heq
      have hparen : (readToken ('(' :: cs)).outcome = .ok (.punctuation .leftParen) := rfl
      rw [hparen] at houtcome
      cases houtcome
      cases hoperand

/-! ## Written expressions -/

/-- A token as it is read somewhere in some text, wherever it stands itself. -/
def Token.IsRead (t : Token) : Prop :=
  ∃ (name text : String) (c : Cursor (File.ofText name text)) (u : Token),
    ((File.ofText name text).tokenAt c).outcome = .ok u ∧ t.detach = u.detach

theorem Token.IsRead.isSpelled {t : Token} (h : t.IsRead) : t.IsSpelled := by
  obtain ⟨name, text, c, u, hread, hdetach⟩ := h
  rw [Token.detach, Token.detach, Token.ofText, Token.ofText, Token.mk.injEq] at hdetach
  rw [Token.IsSpelled, hdetach.1, hdetach.2.1]
  exact File.isSpelled_of_tokenAt (File.oneLine_rest_ofText name text c.position) hread

namespace Expression

/-- The operands are identifiers and literals as they are read, and the operators are spelled as
such.  Any operators may be joined in any way. -/
inductive Written : Expression → Prop where
  | leaf {t : Token} (hread : t.IsRead) (hoperand : t.isOperand = true) : Written (.leaf t)
  | binary {left right : Expression} {t : Token} {o : Operator} (hleft : left.Written)
    (hright : right.Written) (hkind : t.kind = .operator o) (htext : t.text = o.text) :
    Written (.binary left t right)

theorem toList_outline_binary (left right : Expression) (t : Token) (more : List Char) :
    (binary left t right).outline.toList ++ more = '(' :: (left.outline.toList ++
      ' ' :: (t.text.toList ++ ' ' :: (right.outline.toList ++ ')' :: more))) := by
  simp [outline]

variable {a b : Expression} {m n : List Char}

/-- Two written expressions in front of separators cannot be confused. -/
theorem Written.append_inj (ha : a.Written) (hb : b.Written) (hm : ∀ c ∈ m.head?, Separates c)
    (hn : ∀ c ∈ n.head?, Separates c) (h : a.outline.toList ++ m = b.outline.toList ++ n) :
    a.detach = b.detach ∧ m = n := by
  have hspace : ∀ cs, ∀ c ∈ (' ' :: cs).head?, Separates c := by simp [separates_space]
  have hclose : ∀ cs, ∀ c ∈ (')' :: cs).head?, Separates c := by simp [separates_closeParen]
  induction ha generalizing b m n with
  | leaf hread hoperand =>
      cases hb with
      | leaf hread' hoperand' =>
          obtain ⟨hdetach, hrest⟩ := hread.isSpelled.append_inj hread'.isSpelled hm hn h
          exact ⟨congrArg Expression.leaf hdetach, hrest⟩
      | binary hleft hright hkind htext =>
          rw [toList_outline_binary] at h
          exact absurd h (hread.isSpelled.append_ne_openParen hoperand _ _)
  | @binary left right t o hleft hright hkind htext ihl ihr =>
      cases hb with
      | leaf hread' hoperand' =>
          rw [toList_outline_binary] at h
          exact absurd h.symm (hread'.isSpelled.append_ne_openParen hoperand' _ _)
      | @binary left' right' t' o' hleft' hright' hkind' htext' =>
          -- from the left: what is told apart leaves the same text behind on both sides
          rw [toList_outline_binary, toList_outline_binary, List.cons.injEq] at h
          have ht : t.IsSpelled := Token.isSpelled_of_operator hkind htext
          have ht' : t'.IsSpelled := Token.isSpelled_of_operator hkind' htext'
          obtain ⟨hl, h⟩ := ihl hleft' (hspace _) (hspace _) h.2
          obtain ⟨ho, h⟩ := ht.append_inj ht' (hspace _) (hspace _) (List.cons.inj h).2
          obtain ⟨hr, h⟩ := ihr hright' (hclose _) (hclose _) (List.cons.inj h).2
          refine ⟨?_, (List.cons.inj h).2⟩
          rw [detach, detach, hl, ho, hr]

/-- Written expressions have the same outline if and only if they are the same up to places: the
outline shows how they are grouped, and the kinds and texts of their tokens. -/
theorem outline_eq_iff (ha : a.Written) (hb : b.Written) :
    a.outline = b.outline ↔ Node.detach a = Node.detach b := by
  constructor
  · intro h
    refine (ha.append_inj hb (m := []) (n := []) (by simp) (by simp) ?_).1
    rw [List.append_nil, List.append_nil, h]
  · intro h
    rw [← outline_detach a, ← outline_detach b]
    exact congrArg outline h

/-- A string with parentheses in it as a factor. -/
def quotedFactor : Expression :=
  Build.binary (Build.operand "a") .times (.leaf (Build.string "b) * (c"))

/-- A text of that expression. -/
def quotedText : File := .ofText "main.kn" "a * \"b) * (c\""

theorem outline_eq_iff_quotedFactor :
    ∃ e : Expression, e.tokens.map Token.excerpt = [quotedText.stretch ⟨0, 0⟩ 1,
        quotedText.stretch ⟨0, 2⟩ 1, quotedText.stretch ⟨0, 4⟩ 10] ∧
      e.Written ∧ quotedFactor.Written ∧ e.outline = "(a * \"b) * (c\")" ∧
      e.outline = quotedFactor.outline ∧ Node.detach e = Node.detach quotedFactor := by
  let e : Expression :=
    .binary (.leaf ⟨.identifier, "a", quotedText.stretch ⟨0, 0⟩ 1⟩)
      ⟨.operator .times, "*", quotedText.stretch ⟨0, 2⟩ 1⟩
      (.leaf ⟨.string, "\"b) * (c\"", quotedText.stretch ⟨0, 4⟩ 10⟩)
  have hname : ∀ excerpt, Token.IsRead ⟨.identifier, "a", excerpt⟩ := fun excerpt =>
    ⟨_, _, quotedText.cursor ⟨0, 0⟩, _, rfl, rfl⟩
  have hstring : ∀ excerpt, Token.IsRead ⟨.string, "\"b) * (c\"", excerpt⟩ := fun excerpt =>
    ⟨_, _, quotedText.cursor ⟨0, 4⟩, _, rfl, rfl⟩
  have he : e.Written := .binary (.leaf (hname _) rfl) (.leaf (hstring _) rfl) rfl rfl
  have hfactor : quotedFactor.Written :=
    .binary (.leaf (hname _) rfl) (.leaf (hstring _) rfl) rfl rfl
  have houtline : e.outline = quotedFactor.outline := rfl
  exact ⟨e, rfl, he, hfactor, by decide +kernel, houtline, (outline_eq_iff he hfactor).1 houtline⟩

end Expression

/-! ## Expressions that are parsed -/

/-- A grammatical expression of tokens that are read is a written one. -/
theorem Expression.Grammatical.written {e : Expression} (h : e.Grammatical)
    (hread : ∀ t ∈ e.tokens, t.IsRead) : e.Written := by
  induction e with
  | leaf t => exact .leaf (hread t (List.mem_singleton_self t)) h
  | binary left t right ihl ihr =>
      rw [tokens_binary, List.forall_mem_append, List.forall_mem_cons] at hread
      obtain ⟨hleft, hright, precedence, hprecedence, -, -⟩ := h
      cases hkind : t.kind with
      | operator o =>
          have hreads := hread.2.1.isSpelled.reads
          rw [hkind] at hreads
          refine .binary (ihl hleft hread.1) (ihr hright hread.2.2) hkind ?_
          rw [← String.toList_inj, spelling?_of_readToken hreads o.chars rfl, Operator.text,
            String.toList_ofList]
      | _ =>
          rw [hkind] at hprecedence
          cases hprecedence

namespace File

variable {name text : String} {registry : Registry}

/-- Every token among the items of a text is read there. -/
theorem isRead_of_items {items : List Item} (h : (ofText name text).items registry = .ok items) :
    ∀ t, .token t ∈ items → t.IsRead := by
  intro t ht
  refine forall_mem_of_piecesFrom (P := fun item => ∀ t, item = .token t → t.IsRead) (p := ⟨0, 0⟩)
    ?_ (numbered_ofText name text).pos h _ ht t rfl
  rintro p item hitem t rfl
  unfold itemAt at hitem
  split at hitem
  · obtain ⟨d, -, hd⟩ := map_eq_ok_iff.1 hitem
    cases hd
  · obtain ⟨u, hu, heq⟩ := map_eq_ok_iff.1 hitem
    cases heq
    exact ⟨name, text, _, t, hu, rfl⟩

/-- The expressions of a document that is parsed are written ones, so what is grouped in which way
can be told from its outline. -/
theorem written_of_parse {d : Document} (h : (ofText name text).parse registry = .ok d) :
    ∀ f ∈ d.functions, ∀ s ∈ f.statements, ∀ v ∈ s.values.values, v.expression.Written := by
  obtain ⟨hitems, hgrammatical⟩ := items_of_parse h
  intro f hf s hs v hv
  obtain ⟨declaration, hmem, hfunction⟩ := List.mem_filterMap.1 hf
  cases declaration with
  | directive d => cases hfunction
  | function g =>
      cases hfunction
      have hg : f.Grammatical := hgrammatical _ hmem
      refine ((hg.statements s hs).values v hv).written fun t ht => isRead_of_items hitems t ?_
      refine List.mem_flatMap.2 ⟨_, hmem, List.mem_map_of_mem ?_⟩
      have hstatement : t ∈ s.tokens := List.mem_cons_of_mem _
        (List.mem_flatMap.2 ⟨v, hv, List.mem_append_left _ ht⟩)
      simp only [FunctionDecl.tokens, List.mem_append, List.mem_flatMap]
      exact .inl (.inr ⟨s, hs, hstatement⟩)

end File
end Kiln
