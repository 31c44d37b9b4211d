import Kiln.Directive.InlineBlock
import Kiln.Proofs.Grammar.Grammatical
import Kiln.Proofs.RoundTrip.Lexemes
import Kiln.Tree.Item

/-!
# Built documents

The documents that can be put together by `Build` from names, literals, paths and
blocks that can be written down, with operators nested by how tightly they bind.
`Document.write` writes a document down: a function on one line, its tokens with a
space between them, an inclusion on one line, and a block with the lines of its body
between its opening and its closing line.

Built documents are grammatical, and their tokens are lexemes of no file.
-/

namespace Kiln

/-! ## Building -/

/-- Operands are names and literals; an operator binds its operands less tightly than
they hold together, the left one being allowed to tie. -/
inductive Expression.Built : Expression → Prop where
  | operand {name : String} (h : IsLexeme .identifier name) : Built (Build.operand name)
  | number {text : String} {base : Base} (h : IsLexeme (.integer base) text) :
    Built (Build.number text)
  | float {text : String} (h : IsLexeme .float text) : Built (.leaf (Build.float text))
  | string {contents : String} (h : IsLexeme .string ("\"" ++ contents ++ "\"")) :
    Built (.leaf (Build.string contents))
  | binary {left right : Expression} {operator : Operator} {precedence : Nat}
    (hleft : Built left) (hright : Built right)
    (hprecedence : operator.precedence? = some precedence)
    (hbinds : left.BindsFrom precedence) (hbinds' : right.BindsFrom (precedence + 1)) :
    Built (Build.binary left operator right)

/-- A name behind a number of stars. -/
inductive TypeName.Built : TypeName → Prop where
  | pointer (depth : Nat) {base : String} (h : IsLexeme .identifier base) :
    Built (Build.pointer depth base)

/-- A statement that returns built expressions, with or without a trailing comma. -/
inductive ReturnStatement.Built : ReturnStatement → Prop where
  | returning {expressions : List Expression} (h : ∀ e ∈ expressions, e.Built)
    (trailing : Bool) : Built (Build.returning expressions trailing)

/-- A body can stand in a block with a tag if it has no carriage return and none of its
lines closes the block. -/
structure BodyFits (tag body : String) : Prop where
  noReturn : '\r' ∉ body.toList
  noCloser : ∀ line ∈ body.toList.splitOn '\n', words line ≠ [blockCloser, tag.toList]

/-- A function of built parts, an inclusion of a path that can be quoted, or a block
with a tag and a body that fits in. -/
inductive Declaration.Built : Declaration → Prop where
  | function {name : String} {arguments : List (String × TypeName)}
    {returns : Option (List TypeName)} {statements : List ReturnStatement}
    (hname : IsLexeme .identifier name)
    (harguments : ∀ a ∈ arguments, IsLexeme .identifier a.1 ∧ a.2.Built)
    (hreturns : ∀ types ∈ returns, ∀ t ∈ types, t.Built)
    (hstatements : ∀ s ∈ statements, s.Built) :
    Built (Build.function name arguments returns statements)
  | inclusion (quote : PathQuote) {path : String} (hne : path ≠ "")
    (hpath : ∀ c ∈ path.toList, c ≠ '>' ∧ c ≠ '"' ∧ c ≠ '\n' ∧ c ≠ '\r') :
    Built (Build.inclusion quote path)
  | inlineBlock {tag : String} {body : Option String} (hne : tag ≠ "")
    (htag : ∀ c ∈ tag.toList, isWordPart c = true) (hbody : ∀ text ∈ body, BodyFits tag text) :
    Built (Build.inlineBlock tag body)

/-- Built declarations in any order. -/
def Document.Built (d : Document) : Prop := ∀ declaration ∈ d.declarations, declaration.Built

/-! ## Writing -/

/-- The texts of tokens with a space between them. -/
def spaced (tokens : List Token) : List Char :=
  [' '].intercalate (tokens.map fun t => t.text.toList)

/-- The beginning of a directive's line. -/
def DirectiveHead.chars (h : DirectiveHead) : List Char :=
  h.hash.text.toList ++ h.name.text.toList

/-- The line of an inclusion. -/
def Inclusion.line (i : Inclusion) : List Char :=
  i.head.chars ++ ' ' :: (i.opener.text.toList ++ (i.path.text.toList ++ i.closer.text.toList))

/-- The line that opens a block. -/
def InlineBlock.openingLine (b : InlineBlock) : List Char :=
  b.head.chars ++ ' ' :: b.tag.text.toList

/-- The lines of a block's body. -/
def InlineBlock.bodyLines (b : InlineBlock) : List (List Char) :=
  match b.body with
  | some body => body.text.toList.splitOn '\n'
  | none => []

/-- The line that closes a block. -/
def InlineBlock.closingLine (b : InlineBlock) : List Char :=
  blockCloser ++ ' ' :: b.tag.text.toList

/-- The lines of a declaration. -/
def Declaration.lines : Declaration → List (List Char)
  | .function f => [spaced f.tokens]
  | .directive (.inclusion i) => [i.line]
  | .directive (.inlineBlock b) => b.openingLine :: (b.bodyLines ++ [b.closingLine])

/-- The lines of a document. -/
def Document.lines (d : Document) : List (List Char) :=
  d.declarations.flatMap Declaration.lines

/-- The text of a document, each line ending in a line feed. -/
def Document.write (d : Document) : String :=
  String.ofList (d.lines.flatMap fun line => line ++ ['\n'])

/-! ## Commas -/

section Commas

variable {α : Type} {trailing : Bool} {as : List α}

theorem of_mem_withCommas {a : α} {comma : Option Token}
    (h : (a, comma) ∈ Build.withCommas trailing as) :
    a ∈ as ∧ ∀ t ∈ comma, t = Build.comma := by
  fun_induction Build.withCommas trailing as with
  | case1 => cases h
  | case2 b =>
      rw [List.mem_singleton, Prod.mk.injEq] at h
      obtain ⟨rfl, rfl⟩ := h
      refine ⟨List.mem_singleton_self _, ?_⟩
      intro t ht
      split at ht
      · exact (Option.mem_some.1 ht).symm
      · cases ht
  | case3 b bs _ ih =>
      rcases List.mem_cons.1 h with h | h
      · cases h
        exact ⟨List.mem_cons_self, fun t ht => (Option.mem_some.1 ht).symm⟩
      · exact ⟨List.mem_cons_of_mem _ (ih h).1, (ih h).2⟩

theorem forall_mem_map_withCommas {β : Type} {f : α × Option Token → β} {p : β → Prop}
    (h : ∀ a ∈ as, ∀ comma : Option Token, (∀ t ∈ comma, t = Build.comma) → p (f (a, comma))) :
    ∀ b ∈ (Build.withCommas trailing as).map f, p b := by
  intro b hb
  obtain ⟨⟨a, comma⟩, hmem, rfl⟩ := List.mem_map.1 hb
  obtain ⟨ha, hcomma⟩ := of_mem_withCommas hmem
  exact h a ha comma hcomma

theorem commasFit_withCommas (trailing : Bool) (as : List α) :
    CommasFit trailing ((Build.withCommas trailing as).map Prod.snd) := by
  fun_induction Build.withCommas trailing as with
  | case1 => exact commasFit_nil trailing
  | case2 a =>
      apply commasFit_singleton.2
      intro t ht
      cases trailing with
      | false => cases ht
      | true =>
          cases ht
          exact ⟨rfl, rfl⟩
  | case3 a as hne ih =>
      cases hmore : Build.withCommas trailing as with
      | nil =>
          cases as with
          | nil => exact absurd rfl hne
          | cons b bs => cases bs <;> simp [Build.withCommas] at hmore
      | cons next more =>
          rw [hmore, List.map_cons] at ih
          exact commasFit_cons_cons.2 ⟨⟨Build.comma, rfl, rfl⟩, ih⟩

end Commas

/-! ## Built parts are grammatical -/

theorem Expression.Built.grammatical {e : Expression} (h : e.Built) : e.Grammatical := by
  induction h with
  | operand h => rfl
  | number h => rfl
  | float h => rfl
  | string h => rfl
  | @binary left right operator precedence hleft hright hprecedence hbinds hbinds' ihl ihr =>
      exact ⟨ihl, ihr, precedence, hprecedence, hbinds, hbinds'⟩

theorem TypeName.Built.grammatical {type : TypeName} (h : type.Built) : type.Grammatical := by
  cases h with
  | pointer depth h =>
      refine ⟨?_, rfl⟩
      intro star hstar
      rw [List.eq_of_mem_replicate hstar]
      rfl

theorem ReturnStatement.Built.grammatical {s : ReturnStatement} (h : s.Built) :
    s.Grammatical := by
  cases h with
  | @returning expressions h trailing =>
      refine ⟨rfl, ?_, ?_⟩
      · apply forall_mem_map_withCommas
        intro e he comma hcomma
        exact (h e he).grammatical
      · have hcommas := (commasFit_withCommas trailing expressions).mono
        simpa [Build.returning, Build.values, Function.comp_def] using hcommas

theorem grammatical_returnTypes {types : List TypeName} (h : ∀ t ∈ types, t.Built) :
    (Build.returnTypes types).Grammatical := by
  refine ⟨rfl, ?_, ?_, rfl⟩
  · apply forall_mem_map_withCommas
    intro type htype comma hcomma
    exact (h type htype).grammatical
  · have hcommas := commasFit_withCommas false types
    simpa [Build.returnTypes, Function.comp_def] using hcommas

theorem Declaration.Built.grammatical {d : Declaration} (h : d.Built) : d.Grammatical := by
  cases h with
  | @function name arguments returns statements hname harguments hreturns hstatements =>
      refine ⟨rfl, rfl, rfl, ?_, ?_, rfl, ?_, rfl, ?_, rfl⟩
      · apply forall_mem_map_withCommas
        intro a ha comma hcomma
        exact ⟨rfl, (harguments a ha).2.grammatical⟩
      · have hcommas := commasFit_withCommas false arguments
        simpa [Function.comp_def] using hcommas
      · intro r hr
        obtain ⟨types, htypes, rfl⟩ := Option.map_eq_some_iff.1 hr
        exact grammatical_returnTypes (hreturns types htypes)
      · intro s hs
        exact (hstatements s hs).grammatical
  | inclusion quote hne hpath => trivial
  | inlineBlock hne htag hbody => trivial

theorem Document.Built.grammatical {d : Document} (h : d.Built) : d.Grammatical := by
  intro declaration hdeclaration
  exact (h declaration hdeclaration).grammatical

/-! ## Built functions are written with lexemes -/

/-- A token whose text is a lexeme of its kind. -/
def Token.IsSpelled (t : Token) : Prop := IsLexeme t.kind t.text

theorem isSpelled_punctuation {p : Punctuation} (hhash : p ≠ .hash) (hquote : p ≠ .quote) :
    (Token.ofPunctuation p).IsSpelled :=
  isLexeme_punctuation hhash hquote

theorem isSpelled_comma {comma : Option Token} (h : ∀ t ∈ comma, t = Build.comma) :
    ∀ t ∈ comma.toList, t.IsSpelled := by
  intro t ht
  rw [h t (Option.mem_toList.1 ht)]
  exact isSpelled_punctuation (by decide) (by decide)

theorem Expression.Built.isSpelled {e : Expression} (h : e.Built) :
    ∀ t ∈ e.tokens, t.IsSpelled := by
  induction h with
  | operand h => exact List.forall_mem_singleton.2 h
  | @number text base h =>
      have hbase : base = Build.baseOf text.toList := h.base_eq
      subst hbase
      exact List.forall_mem_singleton.2 h
  | float h => exact List.forall_mem_singleton.2 h
  | string h => exact List.forall_mem_singleton.2 h
  | @binary left right operator precedence hleft hright hprecedence hbinds hbinds' ihl ihr =>
      rw [Build.binary, Expression.tokens_binary, List.forall_mem_append, List.forall_mem_cons]
      exact ⟨ihl, isLexeme_operator operator, ihr⟩

theorem TypeName.Built.isSpelled {type : TypeName} (h : type.Built) :
    ∀ t ∈ type.tokens, t.IsSpelled := by
  cases h with
  | pointer depth h =>
      rw [Build.pointer, TypeName.tokens, List.forall_mem_append]
      refine ⟨?_, List.forall_mem_singleton.2 h⟩
      intro star hstar
      rw [List.eq_of_mem_replicate hstar]
      exact isLexeme_operator .times

theorem ReturnStatement.Built.isSpelled {s : ReturnStatement} (h : s.Built) :
    ∀ t ∈ s.tokens, t.IsSpelled := by
  cases h with
  | @returning expressions h trailing =>
      rw [ReturnStatement.tokens, List.forall_mem_cons]
      refine ⟨isLexeme_keyword .yield, List.forall_mem_flatMap.2 ?_⟩
      apply forall_mem_map_withCommas
      intro e he comma hcomma
      rw [ListedValue.tokens, List.forall_mem_append]
      exact ⟨(h e he).isSpelled, isSpelled_comma hcomma⟩

theorem isSpelled_returnTypes {types : List TypeName} (h : ∀ t ∈ types, t.Built) :
    ∀ t ∈ (Build.returnTypes types).tokens, t.IsSpelled := by
  rw [ReturnTypes.tokens, List.forall_mem_append, List.forall_mem_cons]
  refine ⟨⟨isSpelled_punctuation (by decide) (by decide), List.forall_mem_flatMap.2 ?_⟩,
    List.forall_mem_singleton.2 (isSpelled_punctuation (by decide) (by decide))⟩
  apply forall_mem_map_withCommas
  intro type htype comma hcomma
  rw [ReturnType.tokens, List.forall_mem_append]
  exact ⟨(h type htype).isSpelled, isSpelled_comma hcomma⟩

theorem Declaration.Built.isSpelled {f : FunctionDecl} (h : (Declaration.function f).Built) :
    ∀ t ∈ f.tokens, t.IsSpelled := by
  cases h with
  | @function name arguments returns statements hname harguments hreturns hstatements =>
      have hmark : ∀ p : Punctuation, p ≠ .hash → p ≠ .quote →
          (Token.ofPunctuation p).IsSpelled := fun _ => isSpelled_punctuation
      have hhead : ∀ t ∈ [Token.ofKeyword .function, Build.identifier name,
          Token.ofPunctuation .leftParen], t.IsSpelled := by
        simp only [List.forall_mem_cons]
        exact ⟨isLexeme_keyword .function, hname, hmark _ (by decide) (by decide), by simp⟩
      simp only [FunctionDecl.tokens, List.forall_mem_append, List.forall_mem_flatMap,
        List.forall_mem_singleton]
      refine ⟨⟨⟨⟨⟨⟨hhead, ?_⟩, hmark _ (by decide) (by decide)⟩, ?_⟩,
        hmark _ (by decide) (by decide)⟩, ?_⟩, hmark _ (by decide) (by decide)⟩
      · apply forall_mem_map_withCommas
        intro a ha comma hcomma
        rw [Argument.tokens, List.cons_append, List.forall_mem_cons, List.forall_mem_append]
        exact ⟨(harguments a ha).1, (harguments a ha).2.isSpelled, isSpelled_comma hcomma⟩
      · intro r hr
        obtain ⟨types, htypes, rfl⟩ := Option.map_eq_some_iff.1 (Option.mem_toList.1 hr)
        exact isSpelled_returnTypes (hreturns types htypes)
      · intro s hs
        exact (hstatements s hs).isSpelled

/-! ## Built nodes stand nowhere -/

@[simp] theorem Token.detach_ofText (kind : Kind) (text : String) :
    (Token.ofText kind text).detach = Token.ofText kind text := rfl

theorem detach_comma {comma : Option Token} (h : ∀ t ∈ comma, t = Build.comma) :
    comma.map Token.detach = comma := by
  cases comma with
  | none => rfl
  | some t =>
      rw [h t rfl]
      rfl

theorem Expression.Built.detach {e : Expression} (h : e.Built) : Node.detach e = e := by
  induction h with
  | operand h => rfl
  | number h => rfl
  | float h => rfl
  | string h => rfl
  | @binary left right operator precedence hleft hright hprecedence hbinds hbinds' ihl ihr =>
      show Expression.binary (Node.detach left) (Token.ofOperator operator).detach
        (Node.detach right) = _
      rw [ihl, ihr]
      rfl

theorem TypeName.Built.detach {type : TypeName} (h : type.Built) : Node.detach type = type := by
  cases h with
  | pointer depth h => simp [Build.pointer, Node.detach, Node.detachAll, Token.ofOperator,
      Build.identifier]

/-- A list whose nodes stand nowhere stays as it is without any place. -/
theorem detachAll_eq {α : Type} [Node α] {as : List α} (h : ∀ a ∈ as, Node.detach a = a) :
    Node.detachAll as = as :=
  (List.map_congr_left h).trans (List.map_id' as)

theorem ReturnStatement.Built.detach {s : ReturnStatement} (h : s.Built) :
    Node.detach s = s := by
  cases h with
  | @returning expressions h trailing =>
      have hvalues : Node.detachAll (Build.values expressions trailing).values =
          (Build.values expressions trailing).values := by
        apply detachAll_eq
        apply forall_mem_map_withCommas
        intro e he comma hcomma
        show ListedValue.mk (Node.detach e) (comma.map Token.detach) = ⟨e, comma⟩
        rw [(h e he).detach, detach_comma hcomma]
      show ReturnStatement.mk (Token.ofKeyword .yield).detach
        ⟨Node.detachAll (Build.values expressions trailing).values⟩ = _
      rw [hvalues]
      rfl

theorem detach_returnTypes {types : List TypeName} (h : ∀ t ∈ types, t.Built) :
    Node.detach (Build.returnTypes types) = Build.returnTypes types := by
  have htypes : Node.detachAll (Build.returnTypes types).types =
      (Build.returnTypes types).types := by
    apply detachAll_eq
    apply forall_mem_map_withCommas
    intro type htype comma hcomma
    show ReturnType.mk (Node.detach type) (comma.map Token.detach) = ⟨type, comma⟩
    rw [(h type htype).detach, detach_comma hcomma]
  show ReturnTypes.mk _ (Node.detachAll (Build.returnTypes types).types) _ = _
  rw [htypes]
  rfl

theorem FunctionDecl.detach_eq {f : FunctionDecl} (hkeyword : f.keyword.detach = f.keyword)
    (hname : f.name.detach = f.name) (hopenParen : f.openParen.detach = f.openParen)
    (harguments : ∀ a ∈ f.arguments, Node.detach a = a)
    (hcloseParen : f.closeParen.detach = f.closeParen)
    (hreturns : ∀ types ∈ f.returns, Node.detach types = types)
    (hopenBrace : f.openBrace.detach = f.openBrace)
    (hstatements : ∀ s ∈ f.statements, Node.detach s = s)
    (hcloseBrace : f.closeBrace.detach = f.closeBrace) : Node.detach f = f := by
  have htypes : f.returns.map Node.detach = f.returns := by
    cases hf : f.returns with
    | none => rfl
    | some types => exact congrArg some (hreturns types hf)
  show FunctionDecl.mk f.keyword.detach f.name.detach f.openParen.detach
    (Node.detachAll f.arguments) f.closeParen.detach (f.returns.map Node.detach)
    f.openBrace.detach (Node.detachAll f.statements) f.closeBrace.detach = f
  rw [hkeyword, hname, hopenParen, detachAll_eq harguments, hcloseParen, htypes, hopenBrace,
    detachAll_eq hstatements, hcloseBrace]

theorem Declaration.Built.detach {d : Declaration} (h : d.Built) : Node.detach d = d := by
  cases h with
  | @function name arguments returns statements hname harguments hreturns hstatements =>
      refine congrArg Declaration.function (FunctionDecl.detach_eq rfl rfl rfl ?_ rfl ?_ rfl ?_ rfl)
      · apply forall_mem_map_withCommas
        intro a ha comma hcomma
        show Argument.mk (Build.identifier a.1).detach (Node.detach a.2)
          (comma.map Token.detach) = ⟨Build.identifier a.1, a.2, comma⟩
        rw [(harguments a ha).2.detach, detach_comma hcomma]
        rfl
      · intro types htypes
        obtain ⟨types, hmem, rfl⟩ := Option.map_eq_some_iff.1 htypes
        exact detach_returnTypes (hreturns types hmem)
      · intro s hs
        exact (hstatements s hs).detach
  | inclusion quote hne hpath => cases quote <;> rfl
  | @inlineBlock tag body hne htag hbody => cases body <;> rfl

theorem Document.Built.detach {d : Document} (h : d.Built) : Node.detach d = d := by
  show Document.mk (Node.detachAll d.declarations) = d
  rw [detachAll_eq fun declaration hdeclaration => (h declaration hdeclaration).detach]

end Kiln
