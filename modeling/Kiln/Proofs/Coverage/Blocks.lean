import Kiln.Proofs.Coverage.Pieces

/-!
# Inline blocks as pieces of a file

An inline block covers its head and tag, every line of its body from end to end, and
its closing line but for the blanks around it.  The closing line has something other
than blanks, so only an empty body line is covered by an empty stretch.
-/

namespace Kiln

/-! ## Trimmed lines -/

/-- A text other than blanks begins with blanks and something else. -/
theorem exists_of_not_blank {cs : List Char} (h : ∃ c ∈ cs, isBlank c = false) :
    ∃ c more, cs = cs.takeWhile isBlank ++ c :: more ∧ isBlank c = false := by
  obtain ⟨c, hc, hblank⟩ := h
  have hsplit := List.takeWhile_append_dropWhile (p := isBlank) (l := cs)
  cases hdrop : cs.dropWhile isBlank with
  | nil =>
      rw [hdrop, List.append_nil] at hsplit
      rw [← hsplit] at hc
      have hall := List.all_eq_true.1 List.all_takeWhile c hc
      rw [hblank] at hall
      cases hall
  | cons first more =>
      have hfirst := List.head?_dropWhile_not isBlank cs
      rw [hdrop] at hfirst hsplit
      exact ⟨first, more, hsplit.symm, hfirst⟩

/-- Something is left between the blanks a text begins with and those it ends in. -/
theorem length_takeWhile_lt_trimmedLength {cs : List Char} (h : ∃ c ∈ cs, isBlank c = false) :
    (cs.takeWhile isBlank).length < trimmedLength cs := by
  obtain ⟨c, more, hcs, hc⟩ := exists_of_not_blank h
  have hreverse : cs.reverse = more.reverse ++ c :: (cs.takeWhile isBlank).reverse := by
    conv => lhs; rw [hcs]
    simp
  have htail : (cs.reverse.takeWhile isBlank).length ≤ more.length := by
    rw [hreverse, List.takeWhile_append]
    split
    · simp [hc]
    · have hmore := length_takeWhile_le isBlank more.reverse
      rwa [List.length_reverse] at hmore
  have hlength := congrArg List.length hcs
  rw [List.length_append, List.length_cons] at hlength
  unfold trimmedLength
  omega

theorem trimmedLength_le (cs : List Char) : trimmedLength cs ≤ cs.length := Nat.sub_le _ _

/-- Before the trimmed part stand blanks. -/
theorem isBlank_of_lt_takeWhile {cs : List Char} {i : Nat} {c : Char}
    (hi : i < (cs.takeWhile isBlank).length) (hc : cs[i]? = some c) : isBlank c = true := by
  obtain ⟨more, hmore⟩ := List.takeWhile_prefix (l := cs) isBlank
  rw [← hmore, List.getElem?_append_left hi] at hc
  exact List.all_eq_true.1 List.all_takeWhile c (List.mem_of_getElem? hc)

/-- Behind the trimmed part stand blanks. -/
theorem isBlank_of_trimmedLength_le {cs : List Char} {i : Nat} {c : Char}
    (hi : trimmedLength cs ≤ i) (hc : cs[i]? = some c) : isBlank c = true := by
  obtain ⟨hlt, rfl⟩ := List.getElem?_eq_some_iff.1 hc
  have hreverse : cs.reverse[cs.length - 1 - i]? = some cs[i] := by
    rw [List.getElem?_reverse (by omega)]
    have hback : cs.length - 1 - (cs.length - 1 - i) = i := by omega
    rw [hback, List.getElem?_eq_getElem hlt]
  have hle := length_takeWhile_le isBlank cs.reverse
  rw [List.length_reverse] at hle
  unfold trimmedLength at hi
  refine isBlank_of_lt_takeWhile ?_ hreverse
  omega

/-- Blanks alone have no words. -/
theorem words_eq_nil {cs : List Char} (h : ∀ c ∈ cs, isBlank c = true) : words cs = [] := by
  unfold words
  induction cs with
  | nil => rfl
  | cons c cs ih =>
      rw [List.forall_mem_cons] at h
      simp [wordsAfter, h.1, ih h.2]

/-- A line that closes a block is not blank. -/
theorem Line.not_blank_of_closesBlock {line : Line} {tag : List Char}
    (h : line.closesBlock tag = true) : ∃ c ∈ line.chars.toList, isBlank c = false := by
  by_cases hall : ∀ c ∈ line.chars.toList, isBlank c = true
  · rw [closesBlock, words_eq_nil hall] at h
    cases h
  · simpa using hall

namespace File

variable {file : File}

/-- The line that is found is accepted. -/
theorem accept_of_findLine? {accept : Line → Bool} {index found : Nat}
    (h : file.findLine? accept index = some found) : accept (file.line found) = true := by
  fun_induction findLine? file accept index with
  | case1 index hlt haccept =>
      cases h
      simpa [line, hlt] using haccept
  | case2 index hlt _ ih => exact ih h
  | case3 => cases h

/-! ## Bodies -/

/-- The lines between two lines. -/
theorem extract_eq_map_line {first last : Nat} (hle : first ≤ last)
    (hlast : last ≤ file.lines.size) :
    (file.lines.extract first last).toList =
      (List.range' first (last - first)).map file.line := by
  apply List.ext_getElem
  · simp only [Array.length_toList, Array.size_extract, List.length_map, List.length_range']
    omega
  · intro i hi hi'
    simp only [List.length_map, List.length_range'] at hi'
    have hlt : first + i < file.lines.size := by omega
    simp [line, hlt]

/-- The stretches of the lines between two lines. -/
def bodyStretches (file : File) (first last : Nat) : List Stretch :=
  (List.range' first (last - first)).map fun i => ⟨i, 0, (file.line i).length⟩

theorem mem_bodyStretches {first last : Nat} (hle : first ≤ last) {r : Stretch} :
    r ∈ file.bodyStretches first last ↔
      first ≤ r.line ∧ r.line < last ∧ r = ⟨r.line, 0, (file.line r.line).length⟩ := by
  simp only [bodyStretches, List.mem_map, List.mem_range'_1]
  constructor
  · rintro ⟨i, ⟨hfirst, hlast⟩, rfl⟩
    refine ⟨hfirst, ?_, rfl⟩
    show i < last
    omega
  · rintro ⟨hfirst, hlast, hr⟩
    exact ⟨r.line, ⟨hfirst, by omega⟩, hr.symm⟩

theorem pairwise_bodyStretches (first last : Nat) :
    (file.bodyStretches first last).Pairwise Stretch.Before := by
  rw [bodyStretches, List.pairwise_map]
  exact (List.pairwise_lt_range' (s := first) (n := last - first)).imp fun h => Or.inl h

/-- The lines between two lines, each highlighted from end to end. -/
def bodyExcerpts (file : File) (first last : Nat) : List Excerpt :=
  (List.range' first (last - first)).map fun i =>
    .ofHighlight file.name (file.line i) ⟨0, (file.line i).length⟩

theorem located_bodyExcerpts (hfile : file.Numbered) {first last : Nat}
    (hlast : last ≤ file.lastIndex) : ∀ e ∈ file.bodyExcerpts first last, e.Located file := by
  simp only [bodyExcerpts, List.forall_mem_map, List.mem_range'_1]
  intro i hi
  have hle : i ≤ file.lastIndex := by omega
  exact Excerpt.located_ofHighlight (hfile.index_eq i hle) hle

theorem stretches_bodyExcerpts (hfile : file.Numbered) {first last : Nat}
    (hlast : last ≤ file.lastIndex) :
    (file.bodyExcerpts first last).flatMap Excerpt.stretches = file.bodyStretches first last := by
  have hsingle : ∀ i ∈ List.range' first (last - first),
      (Excerpt.ofHighlight file.name (file.line i) ⟨0, (file.line i).length⟩).stretches =
        [⟨i, 0, (file.line i).length⟩] := by
    intro i hi
    rw [List.mem_range'_1] at hi
    rw [stretches_ofHighlight, hfile.index_eq i (by omega)]
  rw [bodyExcerpts, bodyStretches, List.flatMap_map, List.map_eq_flatMap]
  rw [List.flatMap_def, List.flatMap_def, List.map_congr_left hsingle]

/-- The body of a block covers its lines. -/
theorem excerpt_blockBody? (hfile : file.Numbered) {first last : Nat} (hle : first ≤ last)
    (hlast : last ≤ file.lastIndex) :
    (∀ e ∈ Node.excerptOf? (file.blockBody? (file.lines.extract first last).toList),
        e.Located file) ∧
      (Node.excerptOf? (file.blockBody? (file.lines.extract first last).toList)).flatMap
        Excerpt.stretches = file.bodyStretches first last := by
  have hsize : last ≤ file.lines.size := by
    simp only [lastIndex] at hlast
    omega
  rw [extract_eq_map_line hle hsize]
  by_cases heq : first = last
  · subst heq
    simp [blockBody?, Node.excerptOf?, Node.excerpts, bodyStretches]
  · have hne : file.bodyExcerpts first last ≠ [] := by
      simp only [bodyExcerpts, ne_eq, List.map_eq_nil_iff, List.range'_eq_nil_iff]
      omega
    have hunion := Excerpt.union_spec hne (located_bodyExcerpts hfile hlast)
    rw [stretches_bodyExcerpts hfile hlast] at hunion
    have hbody : Node.excerptOf?
        (file.blockBody? ((List.range' first (last - first)).map file.line)) =
        [.union (file.bodyExcerpts first last)] := by
      have hempty : ((List.range' first (last - first)).map file.line).isEmpty = false := by
        rw [List.isEmpty_eq_false_iff, ne_eq, List.map_eq_nil_iff, List.range'_eq_nil_iff]
        omega
      rw [blockBody?, hempty]
      simp [Node.excerptOf?, Node.excerpts, Node.excerpt, bodyExcerpts, List.map_map,
        Function.comp_def]
    rw [hbody]
    have hspec := hunion (pairwise_bodyStretches first last)
    simpa using hspec

/-- A stretch of the lines of a body is one of the body. -/
theorem exists_blockBody? (hfile : file.Numbered) {first last : Nat} (hle : first ≤ last)
    (hlast : last ≤ file.lastIndex) {r : Stretch} (hr : r ∈ file.bodyStretches first last) :
    ∃ body, file.blockBody? (file.lines.extract first last).toList = some body ∧
      r ∈ body.excerpt.stretches := by
  rw [← (excerpt_blockBody? hfile hle hlast).2, List.mem_flatMap] at hr
  obtain ⟨e, he, hr⟩ := hr
  cases hbody : file.blockBody? (file.lines.extract first last).toList with
  | none =>
      rw [hbody] at he
      cases he
  | some body =>
      rw [hbody] at he
      have heq : e = body.excerpt := List.mem_singleton.1 he
      exact ⟨body, rfl, heq ▸ hr⟩

/-! ## Blocks -/

section

variable {p : Position} {n count : Nat} {start rest : Position} {closer : Nat}

/-- The stretch of a line without the blanks around it. -/
def trimmedStretch (file : File) (index : Nat) : Stretch :=
  ⟨index, ((file.line index).chars.toList.takeWhile isBlank).length,
    trimmedLength (file.line index).chars.toList⟩

/-- The stretches of an inline block. -/
def blockStretches (file : File) (p : Position) (n count : Nat) (start : Position)
    (closer : Nat) : List Stretch :=
  [.at p 1, .at (p.right 1) n, .at start count] ++ file.bodyStretches (p.line + 1) closer ++
    [file.trimmedStretch closer]

theorem mem_blockStretches (hle : p.line < closer) {r : Stretch} :
    r ∈ file.blockStretches p n count start closer ↔
      r = .at p 1 ∨ r = .at (p.right 1) n ∨ r = .at start count ∨
        (p.line < r.line ∧ r.line < closer ∧ r = ⟨r.line, 0, (file.line r.line).length⟩) ∨
        r = file.trimmedStretch closer := by
  simp only [blockStretches, List.mem_append, List.mem_cons, List.not_mem_nil, or_false,
    mem_bodyStretches (show p.line + 1 ≤ closer from hle), Nat.succ_le_iff,
    or_assoc]

theorem TagBehind.start_line (h : file.TagBehind ((p.right 1).right n) count start rest closer) :
    start.line = p.line := by
  rw [h.start_eq]
  rfl

theorem TagBehind.rest_line (h : file.TagBehind ((p.right 1).right n) count start rest closer) :
    rest.line = p.line := by
  rw [h.rest_eq]
  exact h.start_line

/-- The closing line stands below the opening one and is not blank. -/
theorem TagBehind.closer_spec
    (h : file.TagBehind ((p.right 1).right n) count start rest closer) :
    p.line < closer ∧ closer ≤ file.lastIndex ∧
      (file.trimmedStretch closer).start < (file.trimmedStretch closer).stop := by
  obtain ⟨hlt, hle⟩ := blockEnd?_bounds h.closes
  exact ⟨hlt, hle, length_takeWhile_lt_trimmedLength
    (Line.not_blank_of_closesBlock (accept_of_findLine? h.closes))⟩

theorem TagBehind.pairwise (hn : 0 < n)
    (h : file.TagBehind ((p.right 1).right n) count start rest closer) :
    (file.blockStretches p n count start closer).Pairwise Stretch.Before := by
  obtain ⟨hlt, -, -⟩ := h.closer_spec
  have hcount := h.count_pos
  have hstart := file.le_skipBlanksInLine ((p.right 1).right n)
  have hline := h.start_line
  rw [← h.start_eq] at hstart
  simp only [Position.le_def, Position.right] at hstart
  have hhead : [Stretch.at p 1, .at (p.right 1) n, .at start count].Pairwise Stretch.Before := by
    simp only [List.pairwise_cons, List.mem_cons, List.not_mem_nil, or_false, forall_eq_or_imp,
      forall_eq, false_imp_iff, implies_true, List.Pairwise.nil, and_true, Stretch.Before,
      Stretch.at, Position.right, true_and]
    omega
  have hheadLine : ∀ r ∈ [Stretch.at p 1, .at (p.right 1) n, .at start count],
      r.line = p.line := by
    simp only [List.forall_mem_cons, List.not_mem_nil, false_imp_iff, implies_true, and_true]
    exact ⟨rfl, rfl, hline⟩
  have hbodyLine : ∀ r ∈ file.bodyStretches (p.line + 1) closer, p.line < r.line ∧
      r.line < closer := by
    intro r hr
    obtain ⟨hfirst, hlast, -⟩ := (mem_bodyStretches hlt).1 hr
    exact ⟨hfirst, hlast⟩
  rw [blockStretches, List.pairwise_append, List.pairwise_append]
  refine ⟨⟨hhead, pairwise_bodyStretches _ _, ?_⟩, List.pairwise_singleton _ _, ?_⟩
  · intro r hr s hs
    have hbelow := (hbodyLine s hs).1
    rw [← hheadLine r hr] at hbelow
    exact Or.inl hbelow
  · intro r hr s hs
    rw [List.mem_singleton] at hs
    subst hs
    apply Or.inl
    show r.line < closer
    rcases List.mem_append.1 hr with hr | hr
    · rw [hheadLine r hr]
      exact hlt
    · exact (hbodyLine r hr).2

theorem TagBehind.excerpt (hfile : file.Numbered) (hn : 0 < n)
    (h : file.TagBehind ((p.right 1).right n) count start rest closer) :
    (Node.excerpt (file.inlineBlockOf (file.headAt p n) p.line count start closer)).Located file ∧
      (Node.excerpt (file.inlineBlockOf (file.headAt p n) p.line count start closer)).stretches =
        file.blockStretches p n count start closer := by
  obtain ⟨hlt, hle, -⟩ := h.closer_spec
  have hline : p.line ≤ file.lastIndex := by omega
  have hstart : start.line ≤ file.lastIndex := h.start_line ▸ hline
  have hhead := excerpt_headAt hfile hline n
  have htag := stretches_stretch hfile hstart count
  have hbody := excerpt_blockBody? hfile (show p.line + 1 ≤ closer from hlt) hle
  have hending : (file.trimmedLine closer).stretches = [file.trimmedStretch closer] := by
    rw [trimmedLine, stretches_ofHighlight, hfile.index_eq closer hle]
    rfl
  have hunion := @Excerpt.union_spec file
    ([Node.excerpt (file.headAt p n), file.stretch start count] ++
      Node.excerptOf? (file.blockBody? (file.lines.extract (p.line + 1) closer).toList) ++
      [file.trimmedLine closer]) (by simp)
  simp only [List.flatMap_append, List.flatMap_cons, List.flatMap_nil, hhead.2, htag, hbody.2,
    hending] at hunion
  refine hunion ?_ (h.pairwise hn)
  intro e he
  simp only [List.mem_append, List.mem_cons, List.not_mem_nil, or_false] at he
  rcases he with ((rfl | rfl) | he) | rfl
  · exact hhead.1
  · exact located_stretch hfile hstart count
  · exact hbody.1 e he
  · exact Excerpt.located_ofHighlight (hfile.index_eq closer hle) hle

/-- The opening line of a block has nothing but a comment behind the tag. -/
theorem TagBehind.last_le_rest
    (h : file.TagBehind ((p.right 1).right n) count start rest closer) {r : Stretch}
    (hr : r ∈ file.blockStretches p n count start closer) (hline : r.line = p.line) :
    r.last ≤ rest := by
  obtain ⟨hlt, -, -⟩ := h.closer_spec
  have hstart := file.le_skipBlanksInLine ((p.right 1).right n)
  have hrest := file.le_skipBlanksInLine (start.right count)
  have hstartLine := h.start_line
  have hrestLine := h.rest_line
  rw [← h.start_eq] at hstart
  rw [← h.rest_eq] at hrest
  simp only [Position.le_def, Position.right] at hstart hrest
  rcases (mem_blockStretches hlt).1 hr with rfl | rfl | rfl | ⟨hbelow, -, -⟩ | rfl
  · simp only [Stretch.last_at, Position.le_def, Position.right]
    omega
  · simp only [Stretch.last_at, Position.le_def, Position.right]
    omega
  · simp only [Stretch.last_at, Position.le_def, Position.right]
    omega
  · omega
  · have hcloser : closer = p.line := hline
    omega

theorem accounted_body (hle : p.line < closer) :
    Accounted file (file.blockStretches p n count start closer) ⟨p.line + 1, 0⟩ ⟨closer, 0⟩ := by
  constructor
  · rw [Position.le_def]
    rcases Nat.lt_or_eq_of_le (show p.line + 1 ≤ closer from hle) with hlt | heq
    · exact Or.inl hlt
    · exact Or.inr ⟨heq, Nat.le_refl _⟩
  · intro x c hpx hxq hc
    simp only [Position.le_def, Position.lt_def] at hpx hxq
    refine Or.inl ⟨⟨x.line, 0, (file.line x.line).length⟩, ?_, rfl, Nat.zero_le _,
      column_lt_of_charAt hc⟩
    refine (mem_blockStretches hle).2 (Or.inr (Or.inr (Or.inr (Or.inl ⟨?_, ?_, rfl⟩))))
    · show p.line < x.line
      omega
    · show x.line < closer
      omega

theorem accounted_closer {rs : List Stretch} (h : file.trimmedStretch closer ∈ rs) :
    Accounted file rs ⟨closer, 0⟩ (file.lineEnd closer) := by
  refine ⟨Or.inr ⟨rfl, Nat.zero_le _⟩, ?_⟩
  intro x c hpx hxq hc
  have hline : x.line = closer := by
    simp only [Position.le_def, Position.lt_def, lineEnd] at hpx hxq
    omega
  rw [charAt_eq_getElem?, lineAt, hline] at hc
  by_cases hstart : x.column < (file.trimmedStretch closer).start
  · exact Or.inr (Or.inl (isBlank_of_lt_takeWhile hstart hc))
  · by_cases hstop : x.column < (file.trimmedStretch closer).stop
    · exact Or.inl ⟨_, h, hline.symm, Nat.not_lt.1 hstart, hstop⟩
    · exact Or.inr (Or.inl (isBlank_of_trimmedLength_le (Nat.not_lt.1 hstop) hc))

/-- The parts of a block, the blanks around them and a comment behind the tag make up
its lines. -/
theorem TagBehind.accounted
    (h : file.TagBehind ((p.right 1).right n) count start rest closer) :
    Accounted file (file.blockStretches p n count start closer) p (file.lineEnd closer) := by
  obtain ⟨hlt, -, -⟩ := h.closer_spec
  have hbody : Accounted file (file.blockStretches p n count start closer) ⟨p.line + 1, 0⟩
      ⟨closer, 0⟩ := accounted_body hlt
  have hcomment : Accounted file (file.blockStretches p n count start closer) rest
      ⟨p.line + 1, 0⟩ := by
    refine accounted_lineEnd (textBehind?_eq_none_iff.1 h.behind) ?_ (by rw [h.rest_line])
    intro r hr hline
    exact h.last_le_rest hr (hline.trans h.rest_line)
  generalize hrs : file.blockStretches p n count start closer = rs at hbody hcomment
  have hmem := fun r => hrs ▸ @mem_blockStretches file p n count start closer hlt r
  have hhash : Accounted file rs p (p.right 1) := accounted_at ((hmem _).2 (by simp))
  have hname : Accounted file rs (p.right 1) ((p.right 1).right n) :=
    accounted_at ((hmem _).2 (by simp))
  have hgap : Accounted file rs ((p.right 1).right n) start := by
    rw [h.start_eq]
    exact accounted_skipBlanksInLine _
  have htag : Accounted file rs start (start.right count) := accounted_at ((hmem _).2 (by simp))
  have hblanks : Accounted file rs (start.right count) rest := by
    rw [h.rest_eq]
    exact accounted_skipBlanksInLine _
  have hending := accounted_closer ((hmem (file.trimmedStretch closer)).2 (by simp))
  exact hhash.trans (hname.trans (hgap.trans (htag.trans (hblanks.trans
    (hcomment.trans (hbody.trans hending))))))

/-- The stretches of a block lie between the hash and the end of the closing line. -/
theorem TagBehind.inside (h : file.TagBehind ((p.right 1).right n) count start rest closer) :
    ∀ r ∈ file.blockStretches p n count start closer,
      p ≤ r.first ∧ r.last ≤ file.lineEnd closer := by
  obtain ⟨hlt, -, -⟩ := h.closer_spec
  have hstart := file.le_skipBlanksInLine ((p.right 1).right n)
  have hstartLine := h.start_line
  rw [← h.start_eq] at hstart
  simp only [Position.le_def, Position.right] at hstart
  intro r hr
  rcases (mem_blockStretches hlt).1 hr with rfl | rfl | rfl | ⟨hbelow, habove, -⟩ | rfl
  · exact ⟨Position.le_refl p, Or.inl hlt⟩
  · exact ⟨p.le_right 1, Or.inl hlt⟩
  · refine ⟨?_, Or.inl (hstartLine ▸ hlt)⟩
    simp only [Stretch.first_at, Position.le_def]
    omega
  · exact ⟨Or.inl hbelow, Or.inl habove⟩
  · exact ⟨Or.inl hlt, Or.inr ⟨rfl, trimmedLength_le _⟩⟩

/-- An inline block is a piece of its lines. -/
theorem readFrom_inlineBlock (hfile : file.Numbered) (hhash : file.charAt p = some '#')
    (hblanks : file.onlyBlanksBefore p = true) (hn : 0 < n)
    (hle : n ≤ (file.rest (p.right 1)).length)
    (h : file.TagBehind ((p.right 1).right n) count start rest closer) :
    Item.ReadFrom file
      (.directive (.inlineBlock
        (file.inlineBlockOf (file.headAt p n) p.line count start closer)))
      p (file.lineEnd closer) := by
  obtain ⟨hlt, hlast, htrimmed⟩ := h.closer_spec
  have hline := line_le_lastIndex hhash
  have hstart : start.line ≤ file.lastIndex := h.start_line ▸ hline
  have hcount := h.count_pos
  obtain ⟨hlocated, hexcerpt⟩ := h.excerpt hfile hn
  have hstretches : Item.stretches (.directive (.inlineBlock
      (file.inlineBlockOf (file.headAt p n) p.line count start closer))) =
      file.blockStretches p n count start closer :=
    hexcerpt
  refine ⟨⟨hlocated, ?_, ?_⟩, ?_, ?_, Or.inl hlt, by simp [Item.isDirective], ?_⟩
  · simp only [Item.tokens, Directive.tokens, inlineBlockOf, List.forall_mem_cons]
    refine ⟨?_, ?_, ?_, by simp⟩
    · exact isSlice_stretch _ hline Nat.one_pos (one_le_length_rest hhash)
    · exact isSlice_stretch _ hline hn hle
    · apply isSlice_stretch _ hstart hcount
      rw [h.count_eq]
      exact length_takeWhile_le _ _
  · intro r hr
    rw [hstretches] at hr
    rcases (mem_blockStretches hlt).1 hr with rfl | rfl | rfl | ⟨hbelow, habove, heq⟩ | rfl
    · exact Or.inl (Nat.lt_succ_self _)
    · exact Or.inl (Nat.lt_add_of_pos_right hn)
    · exact Or.inl (Nat.lt_add_of_pos_right hcount)
    · by_cases hlength : (file.line r.line).length = 0
      · have hbody := (mem_bodyStretches hlt).2 ⟨hbelow, habove, heq⟩
        obtain ⟨body, hsome, hr⟩ := exists_blockBody? hfile hlt hlast hbody
        exact Or.inr ⟨_, body, rfl, hsome, hr, hlength⟩
      · apply Or.inl
        rw [heq]
        exact Nat.pos_of_ne_zero hlength
    · exact Or.inl htrimmed
  · intro r hr
    rw [hstretches] at hr
    exact h.inside r hr
  · rw [hstretches]
    exact h.accounted
  · intro _
    refine ⟨hblanks, Or.inl ?_⟩
    simp [atLineEnd, lineAt, lineEnd]

end

end File
end Kiln
