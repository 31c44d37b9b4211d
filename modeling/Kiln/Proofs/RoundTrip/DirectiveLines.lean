import Kiln.Proofs.Coverage.Blocks
import Kiln.Proofs.RoundTrip.Reading

/-!
# Reading lines of directives

The line of an inclusion and the lines of a block are read as they were written.
-/

namespace Kiln

theorem takeWhile_of_head? {α : Type} {accept : α → Bool} {as bs : List α}
    (has : ∀ a ∈ as, accept a = true) (hbs : ∀ b ∈ bs.head?, accept b = false) :
    (as ++ bs).takeWhile accept = as := by
  rw [List.takeWhile_append_of_pos has]
  cases bs with
  | nil => simp
  | cons b bs =>
      have hb := hbs b rfl
      rw [List.takeWhile_cons_of_neg (by simp [hb]), List.append_nil]

/-! ## Words -/

theorem wordsAfter_append {cs : List Char} (h : ∀ c ∈ cs, isBlank c = false)
    (run more : List Char) : wordsAfter run (cs ++ more) = wordsAfter (cs.reverse ++ run) more := by
  induction cs generalizing run with
  | nil => rfl
  | cons c cs ih =>
      rw [List.forall_mem_cons] at h
      rw [List.cons_append, wordsAfter, if_neg (by simp [h.1]), ih h.2]
      simp

theorem words_append_of_blank {blanks : List Char} (h : ∀ c ∈ blanks, isBlank c = true)
    (cs : List Char) : words (blanks ++ cs) = words cs := by
  induction blanks with
  | nil => rfl
  | cons c blanks ih =>
      rw [List.forall_mem_cons] at h
      rw [← ih h.2, List.cons_append, words, wordsAfter, if_pos h.1]
      rfl

/-- A text begins with a word if a blank or nothing follows the word. -/
theorem words_append_of_not_blank {word more : List Char}
    (hword : ∀ c ∈ word, isBlank c = false) (hne : word ≠ [])
    (hmore : ∀ c ∈ more.head?, isBlank c = true) : words (word ++ more) = word :: words more := by
  rw [words, wordsAfter_append hword, List.append_nil]
  cases more with
  | nil => simp [words, wordsAfter, hne]
  | cons c more =>
      have hblank := hmore c rfl
      rw [wordsAfter, if_pos hblank, if_neg (by simpa using hne), List.reverse_reverse, words,
        wordsAfter, if_pos hblank]
      rfl

/-- Two words with a space between them. -/
theorem words_pair {first second : List Char} (hfirst : ∀ c ∈ first, isBlank c = false)
    (hsecond : ∀ c ∈ second, isBlank c = false) (hne : first ≠ []) (hne' : second ≠ []) :
    words (first ++ ' ' :: second) = [first, second] := by
  have hspace : ∀ c ∈ [' '], isBlank c = true := List.forall_mem_singleton.2 (by decide)
  have hskip : words (' ' :: second) = words second := words_append_of_blank hspace second
  have hlast := @words_append_of_not_blank second [] hsecond hne' (by simp)
  rw [List.append_nil] at hlast
  rw [words_append_of_not_blank hfirst hne fun c hc => hspace c (by simpa using hc.symm), hskip,
    hlast]
  rfl

theorem isBlank_of_isWordPart {c : Char} (h : isWordPart c = true) : isBlank c = false := by
  cases hblank : isBlank c with
  | false => rfl
  | true =>
      rw [isWordPart_of_isBlank hblank] at h
      cases h

theorem isBlank_of_mem_blockCloser {c : Char} (hc : c ∈ blockCloser) : isBlank c = false := by
  have hall : (blockCloser.all fun c => !isBlank c) = true := by decide
  simpa using List.all_eq_true.1 hall c hc

theorem closesBlock_closingLine {b : InlineBlock} {line : Line}
    (htag : ∀ c ∈ b.tag.text.toList, isWordPart c = true) (hne : b.tag.text.toList ≠ [])
    (hline : line.chars.toList = b.closingLine) :
    line.closesBlock b.tag.text.toList = true := by
  have hcloser : ∀ c ∈ blockCloser, isBlank c = false := fun c => isBlank_of_mem_blockCloser
  rw [Line.closesBlock, hline, InlineBlock.closingLine,
    words_pair hcloser (fun c hc => isBlank_of_isWordPart (htag c hc)) (by decide) hne]
  exact beq_self_eq_true _

namespace File

variable {registry : Registry} {file : File} {p : Position} {more : List Char}

/-! ## Beginning of a directive -/

theorem skipBlanksInLine_of_space {c : Char} (hrest : file.rest p = ' ' :: c :: more)
    (hc : isBlank c = false) : file.skipBlanksInLine p = p.right 1 := by
  have hspace : isBlank ' ' = true := by decide
  rw [skipBlanksInLine, skipWhile, hrest, List.takeWhile_cons_of_pos hspace,
    List.takeWhile_cons_of_neg (by simp [hc])]
  rfl

theorem skipBlanksInLine_of_rest (hrest : file.rest p = []) : file.skipBlanksInLine p = p := by
  rw [skipBlanksInLine, skipWhile, hrest]
  rfl

theorem chars_head (name : String) : (Build.head name).chars = '#' :: name.toList := by
  rw [DirectiveHead.chars, Build.head, Token.ofPunctuation, Token.ofText, Punctuation.text,
    String.toList_ofList]
  rfl

theorem directiveAt_of_name {name : List Char} {kind : DirectiveKind} {index : Nat}
    (hrest : file.rest ⟨index, 0⟩ = '#' :: (name ++ ' ' :: more)) (hne : name ≠ [])
    (hname : ∀ c ∈ name, isDirectiveNamePart c = true)
    (hkind : registry.find? (String.ofList name) = some kind) :
    file.directiveAt registry ⟨index, 0⟩ =
      file.directiveOfKindAt kind (file.headAt ⟨index, 0⟩ name.length)
        (((⟨index, 0⟩ : Position).right 1).right name.length) := by
  have hblanks : file.onlyBlanksBefore ⟨index, 0⟩ = true := by
    simp [onlyBlanksBefore, Line.slice]
  have hright := rest_right_one hrest
  have hcount : (file.rest ((⟨index, 0⟩ : Position).right 1)).takeWhile isDirectiveNamePart =
      name := by
    rw [hright]
    refine takeWhile_of_head? hname ?_
    intro c hc
    rw [← Option.mem_some.1 hc]
    decide
  have htext := textAt_of_rest hright
  have hlength : name.length ≠ 0 := by simpa using hne
  rw [directiveAt, if_pos hblanks]
  simp only [hcount, if_neg hlength, htext, hkind]
  rw [headAt, htext]

/-- Where a directive stands that ends at the end of its line or of a line below, it is
read, and then the line below that. -/
theorem readsItems_directive {d d' : Directive} {stop : Position}
    (hrest : file.rest p = '#' :: more)
    (hdirective : file.directiveAt registry p = ⟨.ok d', stop⟩)
    (hdetach : Node.detach d' = Node.detach d) (hstop : file.rest stop = []) :
    file.ReadsItems registry p [.directive d] (stop.line + 1) := by
  have hcomment : commentMark.isPrefixOf (file.rest p) = false := by
    rw [hrest]
    rfl
  have hhash : (file.cursor p).rest.head? = some '#' := by
    show (file.rest p).head? = some '#'
    rw [hrest, List.head?_cons]
  have hitem : file.itemAt registry (file.cursor p) = ⟨.ok (.directive d'), stop⟩ := by
    rw [itemAt, if_pos hhash]
    show (file.directiveAt registry p).map Item.directive = _
    rw [hdirective]
    rfl
  refine ⟨[.directive d'], congrArg (fun d => [Item.directive d]) hdetach, ?_⟩
  rw [itemsFrom_item hrest (by decide) hcomment hitem, itemsFrom_lineEnd hstop]
  rfl

/-- The head of a directive up to its place. -/
theorem detach_headAt {name : List Char} (hrest : file.rest p = '#' :: (name ++ more)) :
    Node.detach (file.headAt p name.length) = Build.head (String.ofList name) := by
  show DirectiveHead.mk (.ofText _ (file.textAt p 1)) (.ofText _ (file.textAt (p.right 1) _)) = _
  rw [textAt_one hrest, textAt_of_rest (rest_right_one hrest)]
  rfl

/-! ## Inclusions -/

/-- A path that is there is read. -/
theorem inclusionAt_of_pathBehind {head : DirectiveHead} {quote : PathQuote} {count : Nat}
    {start stop rest : Position} (h : file.PathBehind p quote count start stop rest)
    (hcount : ((file.rest (start.right 1)).takeWhile fun c => !closesPath c).length = count) :
    file.inclusionAt head p =
      ⟨.ok (.inclusion (file.inclusionOf head quote count start stop)), rest⟩ := by
  obtain ⟨rfl, hopener, hpos, rfl, hcloser, rfl, hbehind⟩ := h
  have hquote : PathQuote.ofOpener? quote.opener = some quote := by cases quote <;> rfl
  have hne : count ≠ 0 := Nat.ne_of_gt hpos
  rw [inclusionAt]
  simp only [hopener, hquote]
  rw [pathAt]
  simp only [hcount, hcloser, if_true, if_neg hne]
  rw [closeInclusion]
  simp only [hbehind]
  rfl

theorem pathBehind_of_rest {quote : PathQuote} {path : List Char}
    (hrest : file.rest p = ' ' :: quote.opener :: (path ++ [quote.closer])) (hne : path ≠ []) :
    file.PathBehind p quote path.length (p.right 1) (((p.right 1).right 1).right path.length)
      ((((p.right 1).right 1).right path.length).right 1) := by
  have hopener : isBlank quote.opener = false := by cases quote <;> decide
  have hstart := rest_right_one hrest
  have hpath := rest_right_one hstart
  have hcloser := rest_right_of_rest hpath
  have hend := rest_right_one hcloser
  refine ⟨(skipBlanksInLine_of_space hrest hopener).symm, charAt_of_rest hstart,
    List.length_pos_iff.2 hne, rfl, charAt_of_rest hcloser,
    (skipBlanksInLine_of_rest hend).symm, ?_⟩
  exact textBehind?_eq_none_iff.2 (Or.inl (atLineEnd_of_rest hend))

theorem detach_inclusionOf {head : DirectiveHead} {quote : PathQuote} {path : List Char}
    (hrest : file.rest p = quote.opener :: (path ++ [quote.closer])) :
    Node.detach (file.inclusionOf head quote path.length p ((p.right 1).right path.length)) =
      ⟨Node.detach head, quote, .ofText quote.openerKind quote.opener.toString,
        .ofText .string (String.ofList path),
        .ofText quote.closerKind quote.closer.toString⟩ := by
  have hpath := rest_right_one hrest
  show Inclusion.mk (Node.detach head) quote (.ofText _ (file.textAt p 1))
    (.ofText _ (file.textAt (p.right 1) path.length)) (.ofText _ (file.textAt _ 1)) = _
  rw [textAt_one hrest, textAt_of_rest hpath, textAt_one (rest_right_of_rest hpath)]
  cases quote <;> rfl

theorem readsItems_inclusion {quote : PathQuote} {path : String} {index : Nat} (hne : path ≠ "")
    (hpath : ∀ c ∈ path.toList, closesPath c = false)
    (hrest : file.rest ⟨index, 0⟩ =
      '#' :: ("include".toList ++ ' ' :: quote.opener :: (path.toList ++ [quote.closer]))) :
    file.ReadsItems .builtin ⟨index, 0⟩ (Build.inclusion quote path).items (index + 1) := by
  have hopener := rest_right_of_rest (rest_right_one hrest)
  have hstart := rest_right_one hopener
  have hbody := rest_right_one hstart
  have hend := rest_right_one (rest_right_of_rest hbody)
  have hcount : ((path.toList ++ [quote.closer]).takeWhile fun c => !closesPath c).length =
      path.toList.length := by
    rw [takeWhile_of_head?]
    · intro c hc
      rw [hpath c hc]
      rfl
    · intro c hc
      rw [← Option.mem_some.1 hc]
      cases quote <;> decide
  rw [← hbody] at hcount
  have hkind : Registry.builtin.find? (String.ofList "include".toList) = some .inclusion := by
    decide
  have hread := directiveAt_of_name hrest (by decide) (List.all_eq_true.1 (by decide)) hkind
  rw [directiveOfKindAt, inclusionAt_of_pathBehind (pathBehind_of_rest hopener (by simpa using hne))
    hcount] at hread
  refine readsItems_directive hrest hread ?_ hend
  show Directive.inclusion (Node.detach _) = _
  rw [detach_inclusionOf hstart, detach_headAt hrest, String.ofList_toList, String.ofList_toList]
  rfl

/-! ## Blocks -/

/-- The first of the lines shown that is accepted is found. -/
theorem findLine?_of_shows {accept : Line → Bool} {index : Nat} {lines after : List (List Char)}
    {closer : List Char} (hshows : file.Shows index (lines ++ closer :: after))
    (hnot : ∀ line : Line, line.chars.toList ∈ lines → accept line = false)
    (haccept : ∀ line : Line, line.chars.toList = closer → accept line = true) :
    file.findLine? accept index = some (index + lines.length) := by
  induction lines generalizing index with
  | nil =>
      have hlt : index < file.lines.size := hshows.lt_lineCount
      have hline : file.line index = file.lines[index] := by simp [line, hlt]
      have hfound := haccept (file.line index) hshows.chars_line
      rw [hline] at hfound
      rw [findLine?, dif_pos hlt, if_pos hfound]
      rfl
  | cons first lines ih =>
      have hlt : index < file.lines.size := hshows.lt_lineCount
      have hline : file.line index = file.lines[index] := by simp [line, hlt]
      have hpassed := hnot (file.line index) (by
        rw [hshows.chars_line]
        exact List.mem_cons_self)
      rw [hline] at hpassed
      have hfound := ih hshows.tail fun line hmem => hnot line (List.mem_cons_of_mem _ hmem)
      rw [findLine?, dif_pos hlt, if_neg (by simp [hpassed]), hfound, List.length_cons]
      congr 1
      omega

theorem charsOf_extract {index : Nat} {lines after : List (List Char)}
    (hshows : file.Shows index (lines ++ after)) :
    charsOf (file.lines.extract index (index + lines.length)).toList = lines := by
  have htake := congrArg (List.take lines.length) hshows
  rw [charsOf, ← List.map_take, List.take_left] at htake
  rw [Array.toList_extract, List.extract_eq_take_drop, Nat.add_sub_cancel_left]
  exact htake

/-- The texts of lines are their code points. -/
theorem toList_text (lines : List Line) :
    (lines.map Line.text).map String.toList = charsOf lines := by
  rw [charsOf, List.map_map]
  apply List.map_congr_left
  intro line _
  rw [Function.comp_apply, line.text_eq, String.toList_ofList]

/-- Lines that are those of a body make this body. -/
theorem detach_blockBody? {b : InlineBlock} {lines : List Line}
    (hlines : charsOf lines = b.bodyLines) :
    (file.blockBody? lines).map Node.detach = b.body.map Node.detach := by
  rw [InlineBlock.bodyLines] at hlines
  cases hbody : b.body with
  | none =>
      rw [hbody] at hlines
      have hnil : lines = [] := List.map_eq_nil_iff.1 hlines
      rw [hnil]
      rfl
  | some body =>
      rw [hbody] at hlines
      have hne : lines ≠ [] := by
        rintro rfl
        exact List.splitOn_ne_nil _ _ hlines.symm
      have htext : "\n".intercalate (lines.map Line.text) = body.text := by
        apply String.toList_inj.1
        rw [String.toList_intercalate, toList_text, hlines]
        exact List.intercalate_splitOn '\n'
      rw [blockBody?, if_neg (by simpa using hne), Option.map_some, Option.map_some, htext]
      rfl

theorem detach_inlineBlockOf {head : DirectiveHead} {b : InlineBlock} {line : Nat}
    {tag : List Char} {after : List (List Char)} (hrest : file.rest p = tag)
    (hshows : file.Shows (line + 1) (b.bodyLines ++ after)) :
    Node.detach (file.inlineBlockOf head line tag.length p (line + 1 + b.bodyLines.length)) =
      ⟨Node.detach head, Build.identifier (String.ofList tag), b.body.map Node.detach,
        .detached⟩ := by
  have htext : file.textAt p tag.length = String.ofList tag := by
    rw [textAt, hrest, List.take_length]
  show InlineBlock.mk (Node.detach head) (.ofText _ (file.textAt p tag.length))
    ((file.blockBody? (file.lines.extract (line + 1) _).toList).map Node.detach) _ = _
  rw [htext, detach_blockBody? (charsOf_extract hshows)]
  rfl

theorem tagBehind_of_rest {tag : List Char} {closer : Nat} (hrest : file.rest p = ' ' :: tag)
    (hne : tag ≠ []) (htag : ∀ c ∈ tag, isWordPart c = true)
    (hcloser : file.blockEnd? p.line tag = some closer) :
    file.TagBehind p tag.length (p.right 1) ((p.right 1).right tag.length) closer := by
  have hstart := rest_right_one hrest
  have hfull : file.rest (p.right 1) = tag ++ [] := by rw [hstart, List.append_nil]
  have hend := rest_right_of_rest hfull
  obtain ⟨c, cs, rfl⟩ := List.exists_cons_of_ne_nil hne
  have hblank := isBlank_of_isWordPart (htag c List.mem_cons_self)
  have hcount : (file.rest (p.right 1)).takeWhile isWordPart = c :: cs := by
    rw [hfull]
    exact takeWhile_of_head? htag fun b hb => by cases hb
  refine ⟨(skipBlanksInLine_of_space hrest hblank).symm, by rw [hcount], Nat.succ_pos _,
    (skipBlanksInLine_of_rest hend).symm, ?_, ?_⟩
  · exact textBehind?_eq_none_iff.2 (Or.inl (atLineEnd_of_rest hend))
  · rw [textAt_of_rest hfull, String.toList_ofList]
    exact hcloser

/-- A block whose tag is there and whose closing line is found is read. -/
theorem inlineBlockAt_of_tagBehind {head : DirectiveHead} {count closer : Nat}
    {start rest : Position} (h : file.TagBehind p count start rest closer) :
    file.inlineBlockAt head p =
      ⟨.ok (.inlineBlock (file.inlineBlockOf head p.line count start closer)),
        file.lineEnd closer⟩ := by
  obtain ⟨rfl, rfl, hpos, rfl, hbehind, hcloser⟩ := h
  have hne := Nat.ne_of_gt hpos
  rw [inlineBlockAt]
  simp only [if_neg hne, hbehind]
  rw [blockAt]
  simp only [hcloser]
  rfl

theorem readsItems_inlineBlock {tag : String} {body : Option String} {index : Nat}
    {after : List (List Char)} (hne : tag ≠ "") (htag : ∀ c ∈ tag.toList, isWordPart c = true)
    (hbody : ∀ text ∈ body, BodyFits tag text)
    (hshows : file.Shows index ((Build.inlineBlock tag body).lines ++ after)) :
    file.ReadsItems .builtin ⟨index, 0⟩ (Build.inlineBlock tag body).items
      (index + (Build.inlineBlock tag body).lines.length) := by
  let b : InlineBlock :=
    ⟨Build.head "inline", Build.identifier tag, body.map fun text => ⟨text, .detached⟩, .detached⟩
  have hlines : (Build.inlineBlock tag body).lines =
      b.openingLine :: (b.bodyLines ++ [b.closingLine]) := rfl
  have htagNe : tag.toList ≠ [] := by simpa using hne
  rw [hlines, List.cons_append] at hshows
  have hrest : file.rest ⟨index, 0⟩ = '#' :: ("inline".toList ++ ' ' :: tag.toList) := by
    rw [rest, lineAt, hshows.chars_line, InlineBlock.openingLine, chars_head]
    rfl
  have hbelow : file.Shows (index + 1) (b.bodyLines ++ b.closingLine :: after) := by
    simpa using hshows.tail
  have hcloser : file.blockEnd? index tag.toList = some (index + 1 + b.bodyLines.length) := by
    refine findLine?_of_shows hbelow ?_ fun line hline =>
      closesBlock_closingLine (b := b) htag htagNe hline
    intro line hline
    cases body with
    | none => cases hline
    | some text =>
        have hwords := (hbody text rfl).noCloser _ hline
        rw [Line.closesBlock]
        exact beq_eq_false_iff_ne.2 hwords
  have htagRest := rest_right_of_rest (rest_right_one hrest)
  have hkind : Registry.builtin.find? (String.ofList "inline".toList) = some .inlineBlock := by
    decide
  have hread := directiveAt_of_name hrest (by decide) (List.all_eq_true.1 (by decide)) hkind
  rw [directiveOfKindAt,
    inlineBlockAt_of_tagBehind (tagBehind_of_rest htagRest htagNe htag hcloser)] at hread
  have hlength : index + (Build.inlineBlock tag body).lines.length =
      (file.lineEnd (index + 1 + b.bodyLines.length)).line + 1 := by
    simp only [hlines, List.length_cons, List.length_append, List.length_nil, lineEnd]
    omega
  rw [hlength]
  refine readsItems_directive hrest hread ?_ (rest_lineEnd file _)
  show Directive.inlineBlock (Node.detach (file.inlineBlockOf _ index _ _ _)) = _
  rw [detach_inlineBlockOf (rest_right_one htagRest) hbelow, detach_headAt hrest,
    String.ofList_toList, String.ofList_toList]
  rfl

end File
end Kiln
