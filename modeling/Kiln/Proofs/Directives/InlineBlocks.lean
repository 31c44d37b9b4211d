import Kiln.Proofs.Directives.LineEnds
import Kiln.Proofs.Safety.Bounds
import Mathlib.Order.Bounds.Basic

/-!
# Inline blocks end at the first closing line

A line closes a block if it consists of the words `#end-inline` and the tag of the block.  The
block goes on to the least of these lines below its opening one, and its body are the lines
between the two, each as it is.
-/

namespace Kiln

/-! ## Words -/

section Words

variable {cs more word tag : List Char} {ws : List (List Char)}

/-- A text is blank or has a first word. -/
theorem blank_or_exists_word (cs : List Char) :
    (∀ c ∈ cs, isBlank c = true) ∨
      ∃ blanks word more, cs = blanks ++ (word ++ more) ∧ (∀ c ∈ blanks, isBlank c = true) ∧
        (∀ c ∈ word, isBlank c = false) ∧ word ≠ [] ∧ ∀ c ∈ more.head?, isBlank c = true := by
  obtain ⟨blanks, after, rfl, -, hblanks, hafter⟩ := exists_run isBlank cs
  obtain ⟨word, more, rfl, -, hword, hmore⟩ := exists_run (fun c => !isBlank c) after
  simp only [Bool.not_eq_true', Bool.not_eq_false'] at hword hmore
  by_cases hne : word = []
  · subst hne
    cases more with
    | nil =>
        rw [List.append_nil, List.append_nil]
        exact Or.inl hblanks
    | cons c more => cases (hmore c rfl).symm.trans (hafter c rfl)
  · exact Or.inr ⟨blanks, word, more, rfl, hblanks, hword, hne, hmore⟩

theorem words_eq_nil_iff : words cs = [] ↔ ∀ c ∈ cs, isBlank c = true := by
  refine ⟨fun h => ?_, words_eq_nil⟩
  rcases blank_or_exists_word cs with hblank | ⟨blanks, word, more, rfl, hblanks, hword, hne, hmore⟩
  · exact hblank
  · rw [words_append_of_blank hblanks, words_append_of_not_blank hword hne hmore] at h
    cases h

/-- The first word of a text stands between blanks, and the other words stand behind it. -/
theorem words_eq_cons_iff : words cs = word :: ws ↔
    ∃ blanks more, cs = blanks ++ (word ++ more) ∧ (∀ c ∈ blanks, isBlank c = true) ∧
      (∀ c ∈ word, isBlank c = false) ∧ word ≠ [] ∧ (∀ c ∈ more.head?, isBlank c = true) ∧
      words more = ws := by
  constructor
  · intro h
    rcases blank_or_exists_word cs with
      hblank | ⟨blanks, first, more, rfl, hblanks, hfirst, hne, hmore⟩
    · rw [words_eq_nil hblank] at h
      cases h
    · rw [words_append_of_blank hblanks, words_append_of_not_blank hfirst hne hmore] at h
      obtain ⟨rfl, rfl⟩ := List.cons.inj h
      exact ⟨blanks, more, rfl, hblanks, hfirst, hne, hmore, rfl⟩
  · rintro ⟨blanks, more, rfl, hblanks, hword, hne, hmore, rfl⟩
    rw [words_append_of_blank hblanks, words_append_of_not_blank hword hne hmore]

/-- A line consists of the words `#end-inline` and a tag. -/
def ClosesBlock (tag cs : List Char) : Prop :=
  ∃ before between after, cs = before ++ (blockCloser ++ (between ++ (tag ++ after))) ∧
    (∀ c ∈ before, isBlank c = true) ∧ (∀ c ∈ between, isBlank c = true) ∧ between ≠ [] ∧
    ∀ c ∈ after, isBlank c = true

/-- A line that closes a block has these two words and no other. -/
theorem words_eq_closer_iff (htag : ∀ c ∈ tag, isBlank c = false) (hne : tag ≠ []) :
    words cs = [blockCloser, tag] ↔ ClosesBlock tag cs := by
  rw [words_eq_cons_iff]
  constructor
  · rintro ⟨before, more, rfl, hbefore, -, -, hmore, hwords⟩
    obtain ⟨between, after, rfl, hbetween, -, -, hafter, hnil⟩ := words_eq_cons_iff.1 hwords
    refine ⟨before, between, after, rfl, hbefore, hbetween, ?_, words_eq_nil_iff.1 hnil⟩
    rintro rfl
    obtain ⟨c, tag, rfl⟩ := List.exists_cons_of_ne_nil hne
    cases (hmore c rfl).symm.trans (htag c List.mem_cons_self)
  · rintro ⟨before, between, after, rfl, hbefore, hbetween, hgap, hafter⟩
    have hhead : ∀ {cs more : List Char}, cs ≠ [] → (∀ c ∈ cs, isBlank c = true) →
        ∀ c ∈ (cs ++ more).head?, isBlank c = true := by
      intro cs more hcs hblank c hc
      rw [List.head?_append_of_ne_nil _ hcs] at hc
      exact hblank c (List.mem_of_mem_head? hc)
    have hend : ∀ c ∈ after.head?, isBlank c = true := fun c hc =>
      hafter c (List.mem_of_mem_head? hc)
    refine ⟨before, _, rfl, hbefore, fun c => isBlank_of_mem_blockCloser, by decide,
      hhead hgap hbetween, ?_⟩
    exact words_eq_cons_iff.2 ⟨between, after, rfl, hbetween, htag, hne, hend,
      words_eq_nil hafter⟩

end Words

namespace File

variable {file : File} {accept : Line → Bool} {index found line closer : Nat}
  {tag : List Char}

/-! ## The first closing line -/

/-- The lines from an index on that are accepted. -/
def acceptedFrom (file : File) (accept : Line → Bool) (index : Nat) : Set Nat :=
  {j | index ≤ j ∧ j < file.lineCount ∧ accept (file.line j) = true}

/-- The lines below a line that close the blocks with a tag. -/
def closingLines (file : File) (tag : List Char) (line : Nat) : Set Nat :=
  {j | line < j ∧ j < file.lineCount ∧ ClosesBlock tag (file.line j).chars.toList}

theorem acceptedFrom_succ (hnot : accept (file.line index) = false) :
    file.acceptedFrom accept (index + 1) = file.acceptedFrom accept index := by
  ext j
  constructor
  · rintro ⟨hle, hlt, haccept⟩
    exact ⟨Nat.le_of_succ_le hle, hlt, haccept⟩
  · rintro ⟨hle, hlt, haccept⟩
    refine ⟨Nat.succ_le_of_lt (Nat.lt_of_le_of_ne hle ?_), hlt, haccept⟩
    rintro rfl
    cases hnot.symm.trans haccept

/-- The line that is found is the first that is accepted. -/
theorem findLine?_spec (file : File) (accept : Line → Bool) (index : Nat) :
    match file.findLine? accept index with
    | some found => IsLeast (file.acceptedFrom accept index) found
    | none => file.acceptedFrom accept index = ∅ := by
  fun_induction findLine? file accept index with
  | case1 index hlt haccept =>
      rw [← line_eq_getElem hlt] at haccept
      exact ⟨⟨Nat.le_refl index, hlt, haccept⟩, fun j hj => hj.1⟩
  | case2 index hlt hnot ih =>
      rw [← line_eq_getElem hlt, Bool.not_eq_true] at hnot
      rwa [acceptedFrom_succ hnot] at ih
  | case3 index hge =>
      refine Set.eq_empty_of_forall_notMem ?_
      rintro j ⟨hle, hlt, -⟩
      exact hge (Nat.lt_of_le_of_lt hle hlt)

theorem acceptedFrom_closesBlock (htag : ∀ c ∈ tag, isWordPart c = true) (hne : tag ≠ []) :
    file.acceptedFrom (fun l => l.closesBlock tag) (line + 1) = file.closingLines tag line := by
  ext j
  have hcloses : (file.line j).closesBlock tag = true ↔
      ClosesBlock tag (file.line j).chars.toList := by
    rw [Line.closesBlock, beq_iff_eq,
      words_eq_closer_iff (fun c hc => isBlank_of_isWordPart (htag c hc)) hne]
  exact and_congr Nat.succ_le_iff (and_congr Iff.rfl hcloses)

/-- A closing line is not blank. -/
theorem exists_of_mem_closingLines (file : File) (h : closer ∈ file.closingLines tag line) :
    ∃ c ∈ (file.line closer).chars.toList, isBlank c = false := by
  obtain ⟨before, between, after, hline, -⟩ := h.2.2
  have hhash : '#' ∈ blockCloser := by decide
  refine ⟨'#', ?_, isBlank_of_mem_blockCloser hhash⟩
  rw [hline]
  exact List.mem_append_right _ (List.mem_append_left _ hhash)

/-- A block ends at the first line below that closes it, if any line does. -/
theorem blockEnd?_spec (file : File) (line : Nat) (htag : ∀ c ∈ tag, isWordPart c = true)
    (hne : tag ≠ []) :
    match file.blockEnd? line tag with
    | some closer => IsLeast (file.closingLines tag line) closer
    | none => file.closingLines tag line = ∅ := by
  have hspec := findLine?_spec file (fun l => l.closesBlock tag) (line + 1)
  rwa [acceptedFrom_closesBlock htag hne] at hspec

theorem blockEnd?_of_isLeast (htag : ∀ c ∈ tag, isWordPart c = true) (hne : tag ≠ [])
    (h : IsLeast (file.closingLines tag line) closer) : file.blockEnd? line tag = some closer := by
  have hspec := blockEnd?_spec file line htag hne
  cases hend : file.blockEnd? line tag with
  | some found =>
      simp only [hend] at hspec
      rw [hspec.unique h]
  | none =>
      simp only [hend] at hspec
      exact absurd h.1 (hspec ▸ Set.notMem_empty closer)

theorem blockEnd?_of_eq_empty (htag : ∀ c ∈ tag, isWordPart c = true) (hne : tag ≠ [])
    (h : file.closingLines tag line = ∅) : file.blockEnd? line tag = none := by
  have hspec := blockEnd?_spec file line htag hne
  cases hend : file.blockEnd? line tag with
  | none => rfl
  | some found =>
      simp only [hend, h] at hspec
      exact absurd hspec.1 (Set.notMem_empty found)

/-! ## Bodies -/

/-- A body holds lines as they are and shows each of them from end to end. -/
structure IsBody (file : File) (lines : List Line) (body : BlockBody) : Prop where
  text_eq : body.text = "\n".intercalate (lines.map Line.text)
  splitOn_text : body.text.toList.splitOn '\n' = charsOf lines
  excerpt_eq : body.excerpt =
    .ofSpans file.name (lines.map fun line => ⟨line, #[⟨0, line.length⟩]⟩).toArray

theorem splitOn_intercalate_text {lines : List Line} (hne : lines ≠ [])
    (honeLine : ∀ line ∈ lines, '\n' ∉ line.chars.toList) :
    ("\n".intercalate (lines.map Line.text)).toList.splitOn '\n' = charsOf lines := by
  rw [String.toList_intercalate, toList_text]
  refine List.splitOn_intercalate '\n' ?_ (by simpa [charsOf] using hne)
  exact List.forall_mem_map.2 honeLine

/-- A line below all those of an excerpt is added behind them. -/
theorem add_ofHighlight {name : String} {spans : Array Span} {line : Line} {h : Highlight}
    (hlt : ∀ s ∈ spans, s.line.index < line.index) :
    (Excerpt.ofSpans name spans).add (.ofHighlight name line h) =
      .ofSpans name (spans.push ⟨line, #[h]⟩) := by
  have hplace : Span.place spans ⟨line, #[h]⟩ = spans.push ⟨line, #[h]⟩ := Span.place_of_lt hlt
  simp [Excerpt.add, Excerpt.mismatch?, Excerpt.absorb, Excerpt.ofHighlight, Excerpt.ofSpans,
    hplace]

theorem foldl_add_lines {name : String} {spans : Array Span} {lines : List Line}
    (hlt : ∀ s ∈ spans, ∀ line ∈ lines, s.line.index < line.index)
    (hlines : lines.Pairwise fun a b => a.index < b.index) :
    (lines.map fun line => Excerpt.ofHighlight name line ⟨0, line.length⟩).foldl Excerpt.add
        (.ofSpans name spans) =
      .ofSpans name (spans ++ (lines.map fun line => ⟨line, #[⟨0, line.length⟩]⟩).toArray) := by
  induction lines generalizing spans with
  | nil => simp
  | cons line lines ih =>
      rw [List.pairwise_cons] at hlines
      rw [List.map_cons, List.foldl_cons,
        add_ofHighlight fun s hs => hlt s hs line List.mem_cons_self, ih _ hlines.2]
      · simp
      · intro s hs other hother
        rcases Array.mem_push.1 hs with hs | rfl
        · exact hlt s hs other (List.mem_cons_of_mem _ hother)
        · exact hlines.1 other hother

/-- Lines shown from end to end, one below the other, are merged into one excerpt of them. -/
theorem union_lines {name : String} {lines : List Line} (hne : lines ≠ [])
    (hlines : lines.Pairwise fun a b => a.index < b.index) :
    Excerpt.union (lines.map fun line => .ofHighlight name line ⟨0, line.length⟩) =
      .ofSpans name (lines.map fun line => ⟨line, #[⟨0, line.length⟩]⟩).toArray := by
  have hfold := @foldl_add_lines name #[] lines (by simp) hlines
  rw [Array.empty_append] at hfold
  rw [← hfold]
  obtain ⟨line, lines, rfl⟩ := List.exists_cons_of_ne_nil hne
  have hfirst : Excerpt.detached.add (.ofHighlight name line ⟨0, line.length⟩) =
      (Excerpt.ofSpans name #[]).add (.ofHighlight name line ⟨0, line.length⟩) := by
    simp [Excerpt.add, Excerpt.mismatch?, Excerpt.absorb, Excerpt.ofHighlight, Excerpt.ofSpans,
      Excerpt.detached]
  rw [Excerpt.union, List.map_cons, List.foldl_cons, List.foldl_cons, hfirst]

/-- The lines between two lines are the body of a block, if there are any. -/
theorem blockBody?_spec (hfile : file.Numbered)
    (honeLine : ∀ line ∈ file.lines, '\n' ∉ line.chars.toList) {first last : Nat}
    (hle : first ≤ last) (hlast : last < file.lineCount) :
    (file.blockBody? (file.lines.extract first last).toList = none ↔ last = first) ∧
      ∀ body ∈ file.blockBody? (file.lines.extract first last).toList,
        file.IsBody (file.lines.extract first last).toList body := by
  have hempty : (file.lines.extract first last).toList = [] ↔ last = first := by
    rw [lineCount] at hlast
    rw [← List.length_eq_zero_iff, Array.length_toList, Array.size_extract]
    omega
  have hlines := pairwise_extract hfile first last
  have hfeed : ∀ line ∈ (file.lines.extract first last).toList, '\n' ∉ line.chars.toList :=
    fun line hline => honeLine line (Array.mem_of_getElem? (mem_extract hfile hline).2.2)
  generalize (file.lines.extract first last).toList = lines at hempty hlines hfeed ⊢
  rw [← hempty, blockBody?]
  by_cases hnil : lines = []
  · subst hnil
    simp
  · rw [if_neg (by simpa using hnil)]
    refine ⟨by simp [hnil], ?_⟩
    rintro body ⟨rfl⟩
    exact ⟨rfl, splitOn_intercalate_text hnil hfeed, union_lines hnil hlines⟩

/-! ## Closing lines -/

/-- An excerpt shows a line from its first to its last character that is not a blank. -/
def ShowsTrimmed (file : File) (index : Nat) (e : Excerpt) : Prop :=
  ∃ before text after, (file.line index).chars.toList = before ++ (text ++ after) ∧
    (∀ c ∈ before, isBlank c = true) ∧ IsTrimmed text ∧ (∀ c ∈ after, isBlank c = true) ∧
    e = .ofHighlight file.name (file.line index) ⟨before.length, before.length + text.length⟩

theorem showsTrimmed_trimmedLine (h : ∃ c ∈ (file.line index).chars.toList, isBlank c = false) :
    file.ShowsTrimmed index (file.trimmedLine index) := by
  rcases blank_or_exists_trimmed (file.line index).chars.toList with
    hblank | ⟨before, text, after, hline, hbefore, htext, hafter⟩
  · obtain ⟨c, hc, hnot⟩ := h
    cases hnot.symm.trans (hblank c hc)
  · have htake : (file.line index).chars.toList.takeWhile isBlank = before := by
      rw [hline]
      exact takeWhile_of_head? hbefore (htext.head?_append after)
    have hlast : ∃ c ∈ (before ++ text).getLast?, isBlank c = false := by
      rw [List.getLast?_append_of_ne_nil _ htext.ne_nil]
      exact htext.last
    have hlength : trimmedLength (file.line index).chars.toList = before.length + text.length := by
      rw [hline, ← List.append_assoc, trimmedLength_append hlast hafter, List.length_append]
    refine ⟨before, text, after, hline, hbefore, htext, hafter, ?_⟩
    rw [trimmedLine, htake, hlength]

/-! ## Reading a block -/

/-- The line behind the name of a block: blanks, word characters as far as they go, and what
follows them. -/
structure IsTagLine (cs blanks tag behind : List Char) : Prop where
  eq : cs = blanks ++ (tag ++ behind)
  blanks : ∀ c ∈ blanks, isBlank c = true
  first : ∀ c ∈ (tag ++ behind).head?, isBlank c = false
  tag : ∀ c ∈ tag, isWordPart c = true
  behind : ∀ c ∈ behind.head?, isWordPart c = false

theorem exists_isTagLine (cs : List Char) :
    ∃ blanks tag behind, IsTagLine cs blanks tag behind := by
  obtain ⟨blanks, after, rfl, -, hblanks, hafter⟩ := exists_run isBlank cs
  obtain ⟨tag, behind, rfl, -, htag, hbehind⟩ := exists_run isWordPart after
  exact ⟨blanks, tag, behind, rfl, hblanks, hafter, htag, hbehind⟩

section Reading

variable {head : DirectiveHead} {p : Position} {blanks behind : List Char}

/-- The tag of a block as a token. -/
def tagToken (file : File) (start : Position) (tag : List Char) : Token :=
  ⟨.identifier, String.ofList tag, file.stretch start tag.length⟩

/-- A block begins with a tag that has nothing behind it on its line. -/
theorem inlineBlockAt_of_isTagLine (h : IsTagLine (file.rest p) blanks tag behind) :
    file.inlineBlockAt head p =
      if tag = [] then
        ⟨.error (DirectiveFault.missingTag.report (file.charExcerpt (p.right blanks.length))),
          p.right blanks.length⟩
      else
        let stop := file.skipBlanksInLine (p.right (blanks.length + tag.length))
        match file.textBehind? stop with
        | some count =>
          let fault := DirectiveFault.textAfter (file.textAt stop count) "inline"
          ⟨.error (fault.report (file.stretch stop count)), stop⟩
        | none => file.blockAt head (file.tagToken (p.right blanks.length) tag) p.line := by
  have hskip := skipBlanksInLine_of_gap h.eq h.blanks h.first
  have hstart := rest_right_of_rest h.eq
  have htake := hstart ▸ takeWhile_of_head? h.tag h.behind
  rw [inlineBlockAt, hskip]
  simp only [htake, List.length_eq_zero_iff, Position.right_right, textAt_of_rest hstart]
  rfl

theorem reports_missingTag (h : IsTagLine (file.rest p) blanks [] behind) :
    (file.inlineBlockAt head p).Reports .missingBlockTag
      (file.charExcerpt (p.right blanks.length)) [] := by
  rw [inlineBlockAt_of_isTagLine h, if_pos rfl]
  exact ⟨_, rfl, rfl, rfl, rfl, rfl⟩

theorem rest_behind_tag (h : IsTagLine (file.rest p) blanks tag behind) :
    file.rest (p.right (blanks.length + tag.length)) = behind := by
  rw [← Position.right_right]
  exact rest_right_of_rest (rest_right_of_rest h.eq)

theorem reports_textAfter {gap text tail : List Char}
    (h : IsTagLine (file.rest p) blanks tag (gap ++ (text ++ tail))) (hne : tag ≠ [])
    (htext : HasText gap text tail) :
    (file.inlineBlockAt head p).Reports .textAfterDirective
      (file.stretch (p.right (blanks.length + tag.length + gap.length)) text.length) [] := by
  obtain ⟨hskip, hcount⟩ := textBehind?_of_hasText (rest_behind_tag h) htext
  rw [inlineBlockAt_of_isTagLine h, if_neg hne, hskip]
  simp only [hcount]
  refine ⟨_, rfl, rfl, rfl, ?_, rfl⟩
  rw [Position.right_right]
  rfl

theorem inlineBlockAt_of_endsLine (h : IsTagLine (file.rest p) blanks tag behind)
    (hne : tag ≠ []) (hends : EndsLine behind) :
    file.inlineBlockAt head p =
      file.blockAt head (file.tagToken (p.right blanks.length) tag) p.line := by
  have hnone := textBehind?_skipBlanksInLine_eq_none_iff.2 ((rest_behind_tag h).symm ▸ hends)
  rw [inlineBlockAt_of_isTagLine h, if_neg hne]
  simp only [hnone]

theorem reports_unclosed {start : Position} (h : file.blockEnd? line tag = none) :
    (file.blockAt head (file.tagToken start tag) line).Reports .unclosedBlock
      (file.pointAt file.endPosition)
      [.union [Node.excerpt head, (file.tagToken start tag).excerpt]] := by
  have htag : (file.tagToken start tag).text.toList = tag := String.toList_ofList
  rw [blockAt, htag]
  simp only [h]
  exact ⟨_, rfl, rfl, rfl, rfl, rfl⟩

/-- A block whose closing line is found is read. -/
theorem blockAt_of_blockEnd? {start : Position} (h : file.blockEnd? line tag = some closer) :
    file.blockAt head (file.tagToken start tag) line =
      ⟨.ok (.inlineBlock
        { head := head
          tag := file.tagToken start tag
          body := file.blockBody? (file.lines.extract (line + 1) closer).toList
          ending := file.trimmedLine closer }), file.lineEnd closer⟩ := by
  have htag : (file.tagToken start tag).text.toList = tag := String.toList_ofList
  rw [blockAt, htag]
  simp only [h]

end Reading

/-- An inline block needs a tag with nothing behind it on its line.  It is then cut at the first
closing line: the lines between are its body, of which there is none where the closing line
comes next, and reading stops at the end of the closing line.  Where no line closes the block
this is a fault at the end of the file. -/
theorem inlineBlockAt_cut (name text : String) (head : DirectiveHead) (p : Position) :
    let file := ofText name text
    let found := file.inlineBlockAt head p
    (∃ blanks tag behind, IsTagLine (file.rest p) blanks tag behind) ∧
    ∀ blanks tag behind, IsTagLine (file.rest p) blanks tag behind →
      let start := p.right blanks.length
      let token : Token := ⟨.identifier, String.ofList tag, file.stretch start tag.length⟩
      (tag = [] → found.Reports .missingBlockTag (file.charExcerpt start) []) ∧
      (tag ≠ [] → ¬EndsLine behind →
        ∃ gap text tail, behind = gap ++ (text ++ tail) ∧ HasText gap text tail ∧
          found.Reports .textAfterDirective
            (file.stretch (start.right (tag.length + gap.length)) text.length) []) ∧
      (tag ≠ [] → EndsLine behind →
        (∀ closer, IsLeast (file.closingLines tag p.line) closer →
          ∃ body ending,
            found = ⟨.ok (.inlineBlock ⟨head, token, body, ending⟩), file.lineEnd closer⟩ ∧
            (body = none ↔ closer = p.line + 1) ∧
            (∀ b ∈ body, file.IsBody (file.lines.extract (p.line + 1) closer).toList b) ∧
            file.ShowsTrimmed closer ending) ∧
        (file.closingLines tag p.line = ∅ →
          found.Reports .unclosedBlock (file.pointAt file.endPosition)
            [.union [Node.excerpt head, token.excerpt]])) := by
  intro file found
  have hfile : file.Numbered := numbered_ofText name text
  have honeLine : ∀ line ∈ file.lines, '\n' ∉ line.chars.toList := by
    intro line hline hfeed
    have hall := oneLine_of_mem_splitLinesAfter oneLine_nil line (List.mem_toArray.1 hline)
    exact (hall _ hfeed).1 rfl
  refine ⟨exists_isTagLine _, ?_⟩
  intro blanks tag behind h start token
  refine ⟨?_, ?_, ?_⟩
  · rintro rfl
    exact reports_missingTag h
  · intro hne hnot
    rcases endsLine_or_exists_text behind with hends | ⟨gap, text, tail, rfl, htext⟩
    · exact absurd hends hnot
    · have hreports := @reports_textAfter file tag head p blanks gap text tail h hne htext
      rw [Nat.add_assoc, ← Position.right_right] at hreports
      exact ⟨gap, text, tail, rfl, htext, hreports⟩
  · intro hne hends
    have hread : found = file.blockAt head token p.line := inlineBlockAt_of_endsLine h hne hends
    rw [hread]
    constructor
    · intro closer hcloser
      have hend := blockEnd?_of_isLeast h.tag hne hcloser
      have hbody := blockBody?_spec hfile honeLine (Nat.succ_le_of_lt hcloser.1.1) hcloser.1.2.1
      have htrimmed := showsTrimmed_trimmedLine (file.exists_of_mem_closingLines hcloser.1)
      exact ⟨_, _, blockAt_of_blockEnd? hend, hbody.1, hbody.2, htrimmed⟩
    · intro hempty
      exact reports_unclosed (blockEnd?_of_eq_empty h.tag hne hempty)

/-- The closing line of another tag and an empty line belong to the body. -/
theorem inlineBlockAt_cut_otherTag :
    let file := ofText "a" "#inline c // x\n#end-inline d\n\n #end-inline\tc \nz"
    let head := file.headAt ⟨0, 0⟩ 6
    ∃ body ending,
      file.inlineBlockAt head ⟨0, 7⟩ =
        ⟨.ok (.inlineBlock ⟨head, ⟨.identifier, "c", file.stretch ⟨0, 8⟩ 1⟩, some body, ending⟩),
          ⟨3, 15⟩⟩ ∧
      body.text = "#end-inline d\n" ∧
      body.text.toList.splitOn '\n' = ["#end-inline d".toList, []] ∧
      file.ShowsTrimmed 3 ending := by
  intro file head
  have htag : IsTagLine (file.rest ⟨0, 7⟩) [' '] ['c'] [' ', '/', '/', ' ', 'x'] := by
    refine ⟨by decide +kernel, List.all_eq_true.1 (by decide), ?_,
      List.all_eq_true.1 (by decide), ?_⟩
    · rintro c ⟨rfl⟩
      decide
    · rintro c ⟨rfl⟩
      decide
  have hends : EndsLine [' ', '/', '/', ' ', 'x'] :=
    ⟨[' '], ['/', '/', ' ', 'x'], rfl, List.all_eq_true.1 (by decide), Or.inr ⟨[' ', 'x'], rfl⟩⟩
  have hcloser : IsLeast (file.closingLines ['c'] 0) 3 := by
    constructor
    · exact ⟨by decide, by decide +kernel, [' '], ['\t'], [' '], by decide +kernel,
        List.all_eq_true.1 (by decide), List.all_eq_true.1 (by decide), by decide,
        List.all_eq_true.1 (by decide)⟩
    · rintro j ⟨hlt, -, hcloses⟩
      have hc : ∀ c ∈ ['c'], isBlank c = false := List.forall_mem_singleton.2 (by decide)
      have hwords := (words_eq_closer_iff hc (by decide)).2 hcloses
      by_contra hge
      have hj : j = 1 ∨ j = 2 := by omega
      rcases hj with rfl | rfl
      · have hline : words (file.line 1).chars.toList ≠ [blockCloser, ['c']] := by decide +kernel
        exact hline hwords
      · have hline : words (file.line 2).chars.toList ≠ [blockCloser, ['c']] := by decide +kernel
        exact hline hwords
  obtain ⟨body, ending, hread, hnone, hbody, htrimmed⟩ :=
    (((inlineBlockAt_cut "a" _ head ⟨0, 7⟩).2 _ _ _ htag).2.2 (by decide) hends).1 3 hcloser
  cases body with
  | none => cases hnone.1 rfl
  | some body =>
      refine ⟨body, ending, hread, ?_, ?_, htrimmed⟩
      · rw [(hbody body rfl).text_eq]
        decide +kernel
      · rw [(hbody body rfl).splitOn_text]
        decide +kernel

end File
end Kiln
