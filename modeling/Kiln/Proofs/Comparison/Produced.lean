import Kiln.Proofs.Comparison.Essence
import Kiln.Proofs.Coverage.Directives
import Kiln.Proofs.Grammar.Documents
import Kiln.Proofs.Lexing.Spelling

/-!
# Comparing documents that are read or assembled

The tokens that a comparison passes over are the same in every document that is parsed
or put together by `Build`: a keyword or mark has one spelling.  The essence of such a
document is its detached copy, and so comparing decides whether two of them are the same
up to places.
-/

namespace Kiln

open Essential

/-- A node whose tokens that are not compared are those of its essence. -/
def IsRegular {α : Type} [Comparable α] [Essential α] (a : α) : Prop :=
  essence a = Node.detach a

theorem map_essence_of_isRegular {α : Type} [Comparable α] [Essential α] {as : List α}
    (h : ∀ a ∈ as, IsRegular a) : as.map essence = Node.detachAll as :=
  List.map_congr_left h

/-! ## Items that are read -/

/-- A token whose text is the spelling of its kind, if that has one. -/
def Token.FollowsKind (t : Token) : Prop :=
  ∀ chars ∈ t.kind.spelling?, t.text = String.ofList chars

theorem Token.FollowsKind.detach_keyword {t : Token} {k : Keyword} (h : t.FollowsKind)
    (hk : t.isKeyword k = true) : t.detach = .ofKeyword k := by
  have hkind : t.kind = .keyword k := by simpa [isKeyword] using hk
  have htext : t.text = k.text := h k.chars (by rw [hkind]; rfl)
  rw [Token.detach, hkind, htext]
  rfl

theorem Token.FollowsKind.detach_punctuation {t : Token} {p : Punctuation} (h : t.FollowsKind)
    (hp : t.isPunctuation p = true) : t.detach = .ofPunctuation p := by
  have hkind : t.kind = .punctuation p := by simpa [isPunctuation] using hp
  have htext : t.text = p.text := h p.chars (by rw [hkind]; rfl)
  rw [Token.detach, hkind, htext]
  rfl

/-- A token that follows its kind, or a regular directive. -/
def Item.IsRegular : Item → Prop
  | .token t => t.FollowsKind
  | .directive d => Kiln.IsRegular d

namespace File

variable {file : File} {registry : Registry}

theorem followsKind_of_tokenAt {c : Cursor file} {t : Token}
    (h : (file.tokenAt c).outcome = .ok t) : t.FollowsKind := by
  intro chars hchars
  rw [← spelling?_of_readToken (readToken_text_of_tokenAt h) chars hchars, String.ofList_toList]

theorem textAt_one_of_charAt {p : Position} {c : Char} (h : file.charAt p = some c) :
    file.textAt p 1 = c.toString :=
  textAt_one (rest_eq_cons h)

/-- An inclusion is read with the quotes of its kind. -/
theorem isRegular_inclusionOf {p start stop rest : Position} {quote : PathQuote} {count : Nat}
    {head : DirectiveHead} (hhead : IsRegular head)
    (h : file.PathBehind p quote count start stop rest) :
    IsRegular (file.inclusionOf head quote count start stop) := by
  have hopener := textAt_one_of_charAt h.opener
  have hcloser := textAt_one_of_charAt h.closer
  refine (Inclusion.mk.injEq ..).mpr ⟨hhead, rfl, ?_, rfl, ?_⟩
  · exact congrArg (Token.ofText quote.openerKind) hopener.symm
  · exact congrArg (Token.ofText quote.closerKind) hcloser.symm

theorem isRegular_headAt {p : Position} (hhash : file.charAt p = some '#') (count : Nat) :
    IsRegular (file.headAt p count) := by
  refine (DirectiveHead.mk.injEq ..).mpr ⟨?_, rfl⟩
  exact congrArg (Token.ofText (.punctuation .hash)) (textAt_one_of_charAt hhash).symm

theorem isRegular_of_directiveAt {p : Position} {d : Directive}
    (hhash : file.charAt p = some '#') (h : (file.directiveAt registry p).outcome = .ok d) :
    IsRegular d := by
  obtain ⟨-, count, kind, -, -, hd, -⟩ := directiveAt_eq_ok h
  have hhead := isRegular_headAt hhash count
  cases kind with
  | inclusion =>
      obtain ⟨quote, n, start, stop, hpath, rfl⟩ := inclusionAt_eq_ok hd
      exact congrArg Directive.inclusion (isRegular_inclusionOf hhead hpath)
  | inlineBlock =>
      obtain ⟨n, start, rest, closer, -, -, rfl⟩ := inlineBlockAt_eq_ok hd
      refine congrArg Directive.inlineBlock ?_
      exact (InlineBlock.mk.injEq ..).mpr ⟨hhead, rfl, rfl, rfl⟩

theorem isRegular_of_itemAt {c : Cursor file} {item : Item}
    (h : (file.itemAt registry c).outcome = .ok item) : item.IsRegular := by
  unfold itemAt at h
  split at h
  · next hhash =>
      obtain ⟨d, hd, rfl⟩ := map_eq_ok_iff.1 h
      rw [c.rest_eq, head?_rest] at hhash
      exact isRegular_of_directiveAt hhash hd
  · obtain ⟨t, ht, rfl⟩ := map_eq_ok_iff.1 h
    exact followsKind_of_tokenAt ht

theorem isRegular_of_items {items : List Item} (h : file.items registry = .ok items) :
    ∀ item ∈ items, item.IsRegular := by
  by_cases hpos : 0 < file.lineCount
  · exact forall_mem_of_piecesFrom (p := ⟨0, 0⟩) (fun _ _ => isRegular_of_itemAt) hpos h
  · have hempty : file.lines = #[] := by
      rw [← Array.size_eq_zero_iff]
      exact Nat.eq_zero_of_not_pos hpos
    have hrest : file.rest ⟨0, 0⟩ = [] := by
      rw [rest, lineAt, line, hempty]
      rfl
    have hitems : file.items registry = piecesOfLine (file.itemAt_advances registry) 1 :=
      piecesFrom_lineEnd hrest
    rw [hitems, piecesOfLine, if_neg (by omega)] at h
    cases h
    exact List.forall_mem_nil _

end File

/-! ## Documents that are read -/

theorem ReturnTypes.Grammatical.isRegular {r : ReturnTypes} (h : r.Grammatical)
    (htokens : ∀ t ∈ r.tokens, t.FollowsKind) : IsRegular r := by
  simp only [ReturnTypes.tokens, List.forall_mem_cons, List.forall_mem_append] at htokens
  refine (ReturnTypes.mk.injEq ..).mpr ⟨?_, rfl, ?_⟩
  · exact (htokens.1.1.detach_punctuation h.opener).symm
  · exact (htokens.2.1.detach_punctuation h.closer).symm

theorem ReturnStatement.Grammatical.isRegular {s : ReturnStatement} (h : s.Grammatical)
    (htokens : ∀ t ∈ s.tokens, t.FollowsKind) : IsRegular s := by
  rw [ReturnStatement.tokens, List.forall_mem_cons] at htokens
  exact (ReturnStatement.mk.injEq ..).mpr ⟨(htokens.1.detach_keyword h.keyword).symm, rfl⟩

theorem FunctionDecl.Grammatical.isRegular {f : FunctionDecl} (h : f.Grammatical)
    (htokens : ∀ t ∈ f.tokens, t.FollowsKind) : IsRegular f := by
  simp only [FunctionDecl.tokens, List.forall_mem_append, List.forall_mem_cons,
    List.forall_mem_flatMap] at htokens
  obtain ⟨⟨⟨⟨⟨⟨⟨hkeyword, -, hopenParen, -⟩, -⟩, hcloseParen, -⟩, hreturns⟩, hopenBrace, -⟩,
    hstatements⟩, hcloseBrace, -⟩ := htokens
  refine (FunctionDecl.mk.injEq ..).mpr ⟨?_, rfl, ?_, rfl, ?_, ?_, ?_, ?_, ?_⟩
  · exact (hkeyword.detach_keyword h.keyword).symm
  · exact (hopenParen.detach_punctuation h.openParen).symm
  · exact (hcloseParen.detach_punctuation h.closeParen).symm
  · apply Option.map_congr
    intro r hr
    exact (h.returns r hr).isRegular (hreturns r (Option.mem_toList.2 hr))
  · exact (hopenBrace.detach_punctuation h.openBrace).symm
  · exact map_essence_of_isRegular fun s hs => (h.statements s hs).isRegular (hstatements s hs)
  · exact (hcloseBrace.detach_punctuation h.closeBrace).symm

theorem Document.Grammatical.isRegular {d : Document} (h : d.Grammatical)
    (hitems : ∀ item ∈ d.items, item.IsRegular) : IsRegular d := by
  refine congrArg Document.mk (map_essence_of_isRegular fun declaration hmem => ?_)
  have hdeclaration : ∀ item ∈ declaration.items, item.IsRegular := fun item hitem =>
    hitems item (List.mem_flatMap.2 ⟨declaration, hmem, hitem⟩)
  cases declaration with
  | function f =>
      refine congrArg Declaration.function ((h _ hmem).isRegular fun t ht => ?_)
      exact hdeclaration (.token t) (List.mem_map_of_mem ht)
  | directive d =>
      exact congrArg Declaration.directive (hdeclaration (.directive d) (List.mem_singleton_self _))

/-- A document that is parsed is grammatical, and its items are those of the file. -/
theorem File.items_of_parse {file : File} {registry : Registry} {d : Document}
    (h : file.parse registry = .ok d) : file.items registry = .ok d.items ∧ d.Grammatical := by
  cases hitems : file.items registry with
  | error fault =>
      rw [File.parse, hitems] at h
      cases h
  | ok items =>
      rw [File.parse, hitems] at h
      have hdocument := File.documentOfItems_eq_ok_iff.1 h
      obtain ⟨hgrammatical, rfl⟩ := Document.ofItems_eq_ok_iff.1 hdocument
      exact ⟨rfl, hgrammatical⟩

/-- A document that is parsed is regular. -/
theorem File.isRegular_of_parse {file : File} {registry : Registry} {d : Document}
    (h : file.parse registry = .ok d) : IsRegular d := by
  obtain ⟨hitems, hgrammatical⟩ := File.items_of_parse h
  exact hgrammatical.isRegular (isRegular_of_items hitems)

/-! ## Documents that are assembled -/

/-- A statement put together by `Build`. -/
inductive ReturnStatement.Assembled : ReturnStatement → Prop where
  | returning (expressions : List Expression) (trailing : Bool) :
    Assembled (Build.returning expressions trailing)

/-- A declaration put together by `Build`, of whatever names, types and expressions. -/
inductive Declaration.Assembled : Declaration → Prop where
  | function (name : String) (arguments : List (String × TypeName))
    (returns : Option (List TypeName)) {statements : List ReturnStatement}
    (hstatements : ∀ s ∈ statements, s.Assembled) :
    Assembled (Build.function name arguments returns statements)
  | inclusion (quote : PathQuote) (path : String) : Assembled (Build.inclusion quote path)
  | inlineBlock (tag : String) (body : Option String) : Assembled (Build.inlineBlock tag body)

/-- A document put together by `Build`. -/
def Document.Assembled (d : Document) : Prop :=
  ∀ declaration ∈ d.declarations, declaration.Assembled

theorem ReturnStatement.Assembled.isRegular {s : ReturnStatement} (h : s.Assembled) :
    IsRegular s := by
  cases h with
  | returning expressions trailing => rfl

theorem Declaration.Assembled.isRegular {d : Declaration} (h : d.Assembled) : IsRegular d := by
  cases h with
  | @function name arguments returns statements hstatements =>
      refine congrArg Declaration.function ?_
      refine (FunctionDecl.mk.injEq ..).mpr ⟨rfl, rfl, rfl, rfl, rfl, ?_, rfl, ?_, rfl⟩
      · apply Option.map_congr
        intro r hr
        obtain ⟨types, -, rfl⟩ := Option.map_eq_some_iff.1 hr
        rfl
      · exact map_essence_of_isRegular fun s hs => (hstatements s hs).isRegular
  | inclusion quote path => cases quote <;> rfl
  | inlineBlock tag body => rfl

/-- A document that is assembled is regular. -/
theorem Document.Assembled.isRegular {d : Document} (h : d.Assembled) : IsRegular d :=
  congrArg Document.mk
    (map_essence_of_isRegular fun declaration hmem => (h declaration hmem).isRegular)

/-! ## What comparing decides -/

/-- A document that is parsed from a file or put together by `Build`. -/
def Document.Produced (d : Document) : Prop :=
  (∃ registry file, File.parse registry file = .ok d) ∨ d.Assembled

theorem Document.Produced.isRegular {d : Document} (h : d.Produced) : IsRegular d := by
  rcases h with ⟨registry, file, hparse⟩ | hassembled
  · exact File.isRegular_of_parse hparse
  · exact hassembled.isRegular

/-- Documents that are parsed or assembled are as expected exactly if they are the same up to
places. -/
theorem Document.Produced.expect_eq_ok_iff {a b : Document} (ha : a.Produced) (hb : b.Produced) :
    a.expect b = .ok () ↔ Node.detach a = Node.detach b := by
  have hessence : a.expect b = .ok () ↔ essence a = essence b :=
    Essential.expect_eq_ok_iff (Node.anchor a) a b
  rw [hessence, ha.isRegular, hb.isRegular]

/-- Wherever what one document lacks is reported, comparing decides whether two documents
have the same essence.  So a node of any kind is as its detached copy, and documents that are
parsed or assembled are as expected exactly if they are the same up to places. -/
theorem Document.comparison_decides :
    (∀ (anchor : Anchor) (a b : Document),
      Kiln.expect anchor a b = .ok () ↔ essence a = essence b) ∧
    (∀ {α : Type} [Comparable α] [Essential α] (anchor : Anchor) (a : α),
      Kiln.expect anchor a (Node.detach a) = .ok ()) ∧
    ∀ a b : Document, a.Produced → b.Produced →
      (a.expect b = .ok () ↔ Node.detach a = Node.detach b) := by
  refine ⟨Essential.expect_eq_ok_iff, ?_, fun a b => Produced.expect_eq_ok_iff⟩
  intro α _ _ anchor a
  rw [Essential.expect_eq_ok_iff, essence_detach]

/-- A document with an inclusion. -/
def inclusionDocument : Document := ⟨[Build.inclusion .angle "a"]⟩

theorem assembled_inclusionDocument : inclusionDocument.Assembled :=
  List.forall_mem_singleton.2 (.inclusion .angle "a")

theorem exists_parse_inclusion :
    ∃ parsed, (File.ofText "a" "#include <a>").parse .builtin = .ok parsed ∧
      Node.detach parsed = inclusionDocument := by
  generalize hfile : File.ofText "a" "#include <a>" = file
  have hrest : file.rest ⟨0, 0⟩ = "#include <a>".toList := by
    subst hfile
    rfl
  have hstop : file.rest ⟨0, 12⟩ = [] := by
    subst hfile
    rfl
  have hcount : file.lineCount = 1 := by
    subst hfile
    rfl
  have hitem : file.itemAt .builtin (file.cursor ⟨0, 0⟩) =
      ⟨.ok (.directive (.inclusion
        (file.inclusionOf (file.headAt ⟨0, 0⟩ 7) .angle 1 ⟨0, 9⟩ ⟨0, 11⟩))), ⟨0, 12⟩⟩ := by
    subst hfile
    rfl
  have hdetach : Node.detach (Document.mk [.directive (.inclusion
      (file.inclusionOf (file.headAt ⟨0, 0⟩ 7) .angle 1 ⟨0, 9⟩ ⟨0, 11⟩))]) = inclusionDocument := by
    subst hfile
    rfl
  have hitems : file.items .builtin = _ :=
    File.piecesFrom_piece (p := ⟨0, 0⟩) hrest (by decide) (by rw [hrest]; decide)
  rw [hitem, File.piecesFrom_lineEnd hstop, File.piecesOfLine, hcount, if_neg (by decide)] at hitems
  generalize file.inclusionOf (file.headAt ⟨0, 0⟩ 7) .angle 1 ⟨0, 9⟩ ⟨0, 11⟩ = i at hitems hdetach
  have hdocument : Document.ofItems [.directive (.inclusion i)] =
      .ok ⟨[.directive (.inclusion i)]⟩ := by
    rw [Document.ofItems, takeDeclarations_directive, takeDeclarations_nil]
    rfl
  refine ⟨⟨[.directive (.inclusion i)]⟩, ?_, hdetach⟩
  rw [File.parse, hitems]
  exact File.documentOfItems_eq_ok_iff.2 hdocument

theorem Document.comparison_decides_inclusion :
    ∃ parsed : Document, parsed.Produced ∧ inclusionDocument.Produced ∧
      parsed.expect inclusionDocument = .ok () := by
  obtain ⟨parsed, hparse, hdetach⟩ := exists_parse_inclusion
  have hparsed : parsed.Produced := .inl ⟨_, _, hparse⟩
  have hassembled : inclusionDocument.Produced := .inr assembled_inclusionDocument
  refine ⟨parsed, hparsed, hassembled, ?_⟩
  exact (Document.comparison_decides.2.2 parsed inclusionDocument hparsed hassembled).2 hdetach

end Kiln
