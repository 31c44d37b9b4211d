import Kiln.Proofs.Safety.Nodes
import Kiln.Proofs.Safety.Readings

/-!
# Guarded reading of tokens and directives

Tokens and directives are read with guarded accesses, one for each access of the reading to a
line, a part of a line or a stretch between two positions, and one for each merge.  At a position
of the file, for a directive one that has a hash, each of these readings succeeds with what the
running definition finds.
-/

namespace Kiln
namespace Guarded

variable {file : File} {p : Position}

/-! ## Trivia and tokens -/

/-- Whether nothing but a comment is left of the line. -/
def endsLine (file : File) (p : Position) : Guarded Bool := do
  if ← atLineEnd file p then return true else startsWith file p commentMark

/-- Past blanks, comments and line ends. -/
def skipTrivia (file : File) (p : Position) : Guarded Position := do
  let q ← eatWhile file p isBlank
  if ← endsLine file q then
    let _ ← lastLine file
    if _h : p.line < file.lastIndex then skipTrivia file ⟨p.line + 1, 0⟩ else endPosition file
  else return q
termination_by file.lastIndex - p.line

/-- The token at a position.  The place where it begins is taken for every fault, though only
the report of a string that is not closed shows it. -/
def tokenAt (file : File) (p : Position) : Guarded (Found Token) := do
  let chars ← rest file p
  let reading := readToken chars
  let stop := p.right reading.length
  match reading.outcome with
  | .ok kind =>
    let (text, excerpt) ← finish file p stop
    return ⟨.ok ⟨kind, text, excerpt⟩, stop⟩
  | .error (fault, distance) =>
    let place ← charExcerpt file (p.right distance)
    let opening ← charExcerpt file p
    return ⟨.error (fault.reportAt place opening), stop⟩

theorem eatBlanks_eq (hp : file.Holds p) :
    eatWhile file p isBlank = .ok (file.skipBlanksInLine p) := eatWhile_eq hp isBlank

theorem endsLine_eq (hp : file.Holds p) :
    endsLine file p = .ok (file.atLineEnd p || file.startsWith p commentMark) := by
  rw [endsLine, atLineEnd_eq hp, ok_bind, startsWith_eq hp]
  cases file.atLineEnd p <;> rfl

theorem endsLine_skipBlanksInLine (c : Cursor file) (hc : file.Holds c.position) :
    endsLine file (file.skipWhile c.position isBlank) =
      .ok (c.skipBlanksInLine.atLineEnd || c.skipBlanksInLine.startsWith commentMark) := by
  rw [endsLine_eq (hc.skipWhile isBlank), Cursor.atLineEnd_eq, Cursor.startsWith_eq,
    Cursor.position_skipBlanksInLine]
  rfl

theorem skipTrivia_eq (c : Cursor file) (hc : file.Holds c.position) :
    skipTrivia file c.position = .ok c.skipTrivia.position := by
  have hpos : 0 < file.lineCount := Nat.zero_lt_of_lt hc.line_lt
  fun_induction Cursor.skipTrivia c with
  | case1 c d hstop hline ih =>
      rw [skipTrivia, eatWhile_eq hc, ok_bind, endsLine_skipBlanksInLine c hc, ok_bind,
        if_pos hstop, lastLine_eq hpos, ok_bind, dif_pos hline]
      exact ih (File.holds_lineStart (File.lt_lastIndex_iff.1 hline))
  | case2 c d hstop hline =>
      rw [skipTrivia, eatWhile_eq hc, ok_bind, endsLine_skipBlanksInLine c hc, ok_bind,
        if_pos hstop, lastLine_eq hpos, ok_bind, dif_neg hline]
      exact endPosition_eq hpos
  | case3 c d hstop =>
      rw [skipTrivia, eatWhile_eq hc, ok_bind, endsLine_skipBlanksInLine c hc, ok_bind,
        if_neg hstop]
      exact congrArg Except.ok c.position_skipBlanksInLine.symm

theorem tokenAt_eq (hp : file.Holds p) :
    tokenAt file p = .ok (file.tokenAt (file.cursor p)) := by
  rw [tokenAt, rest_eq hp, ok_bind, File.tokenAt]
  have hrest : (file.cursor p).rest = file.rest p := rfl
  simp only [hrest, File.position_cursor]
  cases h : (readToken (file.rest p)).outcome with
  | ok kind =>
      simp only [finish_right hp (length_readToken_le _)]
      rfl
  | error fault =>
      obtain ⟨fault, distance⟩ := fault
      have hplace := hp.right (distance_le_of_readToken h)
      simp only [charExcerpt_eq hplace, charExcerpt_eq hp]
      rfl

/-! ## The rest of a directive's line -/

/-- Takes one code point as a token of a kind. -/
def take (file : File) (p : Position) (kind : Kind) : Guarded (Token × Position) := do
  let stop ← stepInLine file p
  let (text, excerpt) ← finish file p stop
  return (⟨kind, text, excerpt⟩, stop)

/-- Behind a directive nothing but blanks and a comment may stand on its line. -/
def expectEndOfLine (file : File) (p : Position) (directive : String) : Guarded (Found Unit) := do
  let start ← eatWhile file p isBlank
  if ← endsLine file start then return ⟨.ok (), start⟩
  else
    let line ← lineOf file start.line
    let last ← minus line.length (line.chars.toList.reverse.takeWhile isBlank).length
    let (text, excerpt) ← finish file start ⟨start.line, last⟩
    return ⟨.error ((DirectiveFault.textAfter text directive).report excerpt), start⟩

theorem take_eq (hp : file.Holds p) (hline : file.atLineEnd p = false) (kind : Kind) :
    take file p kind = .ok (⟨kind, file.textAt p 1, file.stretch p 1⟩, p.right 1) := by
  have hstep : file.stepInLine p = p.right 1 := if_neg (Bool.eq_false_iff.1 hline)
  obtain ⟨c, hc⟩ := File.atLineEnd_eq_false_iff.1 hline
  rw [take, stepInLine_eq hp, ok_bind, hstep, finish_right hp (File.one_le_length_rest hc)]
  rfl

/-- Blanks are passed up to the end of the line or something else. -/
theorem not_isBlank_skipBlanksInLine {c : Char}
    (h : file.charAt (file.skipBlanksInLine p) = some c) : isBlank c = false := by
  have hnot := List.head?_dropWhile_not isBlank (file.rest p)
  rw [File.skipBlanksInLine, File.skipWhile, ← File.head?_rest, File.rest_right,
    Cursor.drop_length_takeWhile] at h
  rw [h] at hnot
  simpa using hnot

/-- Whatever is not blank stands before the blanks that a line ends in. -/
theorem column_lt_trimmedLength {c : Char} (h : file.charAt p = some c) (hc : isBlank c = false) :
    p.column < trimmedLength (file.lineAt p).chars.toList := by
  rw [File.charAt_eq_getElem?] at h
  apply Nat.lt_of_not_le
  intro hle
  have hblank := isBlank_of_trimmedLength_le hle h
  rw [hc] at hblank
  cases hblank

/-- What stands behind a directive on its line, if anything does. -/
def lineEndAt (file : File) (p : Position) (directive : String) : Found Unit :=
  let start := file.skipBlanksInLine p
  match file.textBehind? start with
  | none => ⟨.ok (), start⟩
  | some count =>
    let fault := DirectiveFault.textAfter (file.textAt start count) directive
    ⟨.error (fault.report (file.stretch start count)), start⟩

theorem expectEndOfLine_eq (hp : file.Holds p) (directive : String) :
    expectEndOfLine file p directive = .ok (lineEndAt file p directive) := by
  have hstart := hp.skipBlanksInLine
  rw [expectEndOfLine, eatBlanks_eq hp, ok_bind, endsLine_eq hstart, ok_bind, lineEndAt]
  cases hbehind : file.textBehind? (file.skipBlanksInLine p) with
  | none =>
      have hends := File.textBehind?_eq_none_iff.1 hbehind
      rw [← Bool.or_eq_true] at hends
      rw [if_pos hends]
      rfl
  | some count =>
      have hcount := File.textBehind?_le hbehind
      rw [File.textBehind?] at hbehind
      split at hbehind
      · cases hbehind
      · next hends =>
          cases hbehind
          rw [if_neg hends, lineOf_eq hstart.line_lt, ok_bind]
          rw [Bool.or_eq_true, not_or, Bool.not_eq_true] at hends
          obtain ⟨c, hc⟩ := File.atLineEnd_eq_false_iff.1 hends.1
          have hlt := column_lt_trimmedLength hc (not_isBlank_skipBlanksInLine hc)
          generalize file.skipBlanksInLine p = start at hstart hlt hcount
          have hstop : (⟨start.line, trimmedLength (file.lineAt start).chars.toList⟩ : Position) =
              start.right (trimmedLength (file.lineAt start).chars.toList - start.column) := by
            rw [Position.right, Nat.add_sub_cancel' (Nat.le_of_lt hlt)]
          have hminus : minus (file.line start.line).length
              ((file.line start.line).chars.toList.reverse.takeWhile isBlank).length =
                .ok (trimmedLength (file.lineAt start).chars.toList) := by
            have hle := length_takeWhile_le isBlank (file.line start.line).chars.toList.reverse
            rw [List.length_reverse] at hle
            rw [Line.length, ← Array.length_toList, minus_eq hle]
            rfl
          rw [hminus, ok_bind, hstop, finish_right hstart hcount]
          rfl

/-! ## Inclusions -/

/-- Reads a path whose opening quote stands at a position. -/
def pathAt (file : File) (head : DirectiveHead) (quote : PathQuote) (p : Position) :
    Guarded (Found Directive) := do
  let (opener, start) ← take file p quote.openerKind
  let stop ← eatWhile file start fun c => !closesPath c
  match ← current file stop with
  | none =>
    let place ← point file stop
    return ⟨.error ((DirectiveFault.unclosedPath quote).reportFrom place opener.excerpt), stop⟩
  | some c =>
    if c = quote.closer then
      let (text, excerpt) ← finish file start stop
      let (closer, behind) ← take file stop quote.closerKind
      if text = "" then
        let place ← union [opener.excerpt, closer.excerpt]
        return ⟨.error (DirectiveFault.emptyPath.report place), behind⟩
      else
        let path : Token := ⟨.string, text, excerpt⟩
        let ending ← expectEndOfLine file behind "include"
        return ending.map fun _ => .inclusion ⟨head, quote, opener, path, closer⟩
    else
      let place ← charExcerpt file stop
      return ⟨.error ((DirectiveFault.wrongPathCloser c quote).reportFrom place opener.excerpt),
        stop⟩

/-- Reads the rest of an inclusion behind its name. -/
def inclusionAt (file : File) (head : DirectiveHead) (p : Position) :
    Guarded (Found Directive) := do
  let start ← eatWhile file p isBlank
  match ← current file start with
  | none =>
    let place ← point file start
    return ⟨.error (DirectiveFault.missingPath.report place), start⟩
  | some c =>
    match PathQuote.ofOpener? c with
    | none =>
      let place ← charExcerpt file start
      return ⟨.error ((DirectiveFault.wrongPathOpener c).report place), start⟩
    | some quote => pathAt file head quote start

theorem textAt_eq_empty_iff {count : Nat} (h : count ≤ (file.rest p).length) :
    file.textAt p count = "" ↔ count = 0 := by
  rw [File.textAt, String.ofList_eq_empty_iff, List.take_eq_nil_iff]
  constructor
  · rintro (hzero | hnil)
    · exact hzero
    · rw [hnil] at h
      exact Nat.le_zero.1 h
  · exact Or.inl

theorem closeInclusion_eq (file : File) (i : Inclusion) (p : Position) :
    file.closeInclusion i p = (lineEndAt file p "include").map fun _ => .inclusion i := by
  rw [File.closeInclusion, lineEndAt]
  cases file.textBehind? (file.skipBlanksInLine p) <;> rfl

theorem pathAt_eq (hfile : file.Numbered) (head : DirectiveHead) (quote : PathQuote)
    (hp : file.Holds p) (hline : file.atLineEnd p = false) :
    pathAt file head quote p = .ok (file.pathAt head quote p) := by
  have hstart := hp.right_one hline
  have hcount := length_takeWhile_le (fun c => !closesPath c) (file.rest (p.right 1))
  rw [pathAt, take_eq hp hline, ok_bind, File.pathAt]
  dsimp only
  rw [eatWhile_eq hstart, ok_bind, File.skipWhile]
  generalize ((file.rest (p.right 1)).takeWhile fun c => !closesPath c).length = count at hcount ⊢
  have hstop := hstart.right hcount
  rw [current_eq hstop, ok_bind]
  cases hchar : file.charAt ((p.right 1).right count) with
  | none =>
      dsimp only
      rw [point_eq hstop]
      rfl
  | some c =>
      have hend : file.atLineEnd ((p.right 1).right count) = false :=
        File.atLineEnd_eq_false_iff.2 ⟨c, hchar⟩
      dsimp only
      by_cases hcloser : c = quote.closer
      · rw [if_pos hcloser, if_pos hcloser, finish_right hstart hcount, ok_bind,
          take_eq hstop hend, ok_bind]
        by_cases hempty : count = 0
        · have hquotes : ∀ e ∈ [file.stretch p 1, file.stretch ((p.right 1).right count) 1],
              e.Fits file :=
            List.forall_mem_cons.2 ⟨(File.inside_stretch_one hfile hp hline).toFits,
              List.forall_mem_singleton.2 (File.inside_stretch_one hfile hstop hend).toFits⟩
          rw [if_pos ((textAt_eq_empty_iff hcount).2 hempty), if_pos hempty, union_eq hquotes]
          rfl
        · rw [if_neg (mt (textAt_eq_empty_iff hcount).1 hempty), if_neg hempty,
            expectEndOfLine_eq (hstop.right_one hend), closeInclusion_eq]
          rfl
      · rw [if_neg hcloser, if_neg hcloser, charExcerpt_eq hstop]
        rfl

theorem inclusionAt_eq (hfile : file.Numbered) (head : DirectiveHead) (hp : file.Holds p) :
    inclusionAt file head p = .ok (file.inclusionAt head p) := by
  have hstart := hp.skipBlanksInLine
  rw [inclusionAt, eatBlanks_eq hp, ok_bind, current_eq hstart, ok_bind, File.inclusionAt]
  cases hchar : file.charAt (file.skipBlanksInLine p) with
  | none =>
      dsimp only
      rw [point_eq hstart]
      rfl
  | some c =>
      dsimp only
      cases PathQuote.ofOpener? c with
      | none =>
          dsimp only
          rw [charExcerpt_eq hstart]
          rfl
      | some quote =>
          exact pathAt_eq hfile head quote hstart (File.atLineEnd_eq_false_iff.2 ⟨c, hchar⟩)

/-! ## Inline blocks -/

/-- The columns of a line without the blanks around it. -/
def trimmed (line : Line) : Guarded (Nat × Nat) := do
  let first := (line.chars.toList.takeWhile isBlank).length
  let chars ← sliceOf line.chars first line.length
  let last ← minus line.length (chars.toList.reverse.takeWhile isBlank).length
  return (first, last)

/-- Reads the lines of a block below a position.  Those above that belong to its body are given
together with their excerpts. -/
def blockFrom (file : File) (head : DirectiveHead) (tag : Token) (p : Position)
    (lines : List Line) (excerpts : List Excerpt) : Guarded (Found Directive) := do
  let _ ← lastLine file
  if _h : p.line < file.lastIndex then
    let line ← lineOf file (p.line + 1)
    if line.closesBlock tag.text.toList then
      let (first, last) ← trimmed line
      let (_, ending) ← finish file ⟨line.index, first⟩ ⟨line.index, last⟩
      let stop ← eatWhile file ⟨p.line + 1, 0⟩ fun _ => true
      let place ← union excerpts
      let body : Option BlockBody :=
        if lines.isEmpty then none else some ⟨"\n".intercalate (lines.map Line.text), place⟩
      return ⟨.ok (.inlineBlock ⟨head, tag, body, ending⟩), stop⟩
    else
      let excerpt ← wholeLine file line.index
      blockFrom file head tag ⟨p.line + 1, 0⟩ (lines ++ [line]) (excerpts ++ [excerpt])
  else
    let stop ← endPosition file
    let headPlace ← Guardable.excerpt head
    let opener ← union [headPlace, tag.excerpt]
    let place ← point file stop
    return ⟨.error ((DirectiveFault.unclosedBlock tag.text).reportFrom place opener), stop⟩
termination_by file.lastIndex - p.line

/-- Reads the rest of an inline block behind its name. -/
def inlineBlockAt (file : File) (head : DirectiveHead) (p : Position) :
    Guarded (Found Directive) := do
  let start ← eatWhile file p isBlank
  let stop ← eatWhile file start isWordPart
  let (text, excerpt) ← finish file start stop
  if text = "" then
    let place ← charExcerpt file start
    return ⟨.error (DirectiveFault.missingTag.report place), stop⟩
  else
    let ending ← expectEndOfLine file stop "inline"
    match ending.outcome with
    | .error d => return ⟨.error d, ending.stop⟩
    | .ok () => blockFrom file head ⟨.identifier, text, excerpt⟩ ending.stop [] []

/-- What ends in something else than a blank ends in as many blanks whatever precedes it. -/
theorem takeWhile_append_cons {α : Type} {accept : α → Bool} {a : α} (ha : accept a = false)
    (as front : List α) : (as ++ a :: front).takeWhile accept = as.takeWhile accept := by
  induction as with
  | nil => exact List.takeWhile_cons_of_neg (Bool.eq_false_iff.1 ha)
  | cons b as ih =>
      rw [List.cons_append, List.takeWhile_cons, List.takeWhile_cons, ih]

theorem trimmed_eq {line : Line} (h : ∃ c ∈ line.chars.toList, isBlank c = false) :
    trimmed line = .ok ((line.chars.toList.takeWhile isBlank).length,
      trimmedLength line.chars.toList) := by
  obtain ⟨c, more, hchars, hc⟩ := exists_of_not_blank h
  have hlength : line.chars.toList.length = line.length := Array.length_toList
  have hfirst : (line.chars.toList.takeWhile isBlank).length ≤ line.length :=
    hlength ▸ length_takeWhile_le isBlank line.chars.toList
  have hdrop : line.chars.toList.drop (line.chars.toList.takeWhile isBlank).length = c :: more := by
    rw [Cursor.drop_length_takeWhile]
    exact List.append_cancel_left (List.takeWhile_append_dropWhile.trans hchars)
  have hrest : (line.chars.extract (line.chars.toList.takeWhile isBlank).length
      line.length).toList = c :: more := by
    rw [Array.toList_extract, List.extract_eq_take_drop, ← hlength, ← List.length_drop,
      List.take_length, hdrop]
  -- the blanks at the end are the same with and without those at the beginning
  have hlast : (c :: more).reverse.takeWhile isBlank =
      line.chars.toList.reverse.takeWhile isBlank := by
    rw [hchars, List.reverse_append, List.reverse_cons, List.append_assoc, List.singleton_append,
      takeWhile_append_cons hc, takeWhile_append_cons hc]
  have hle := length_takeWhile_le isBlank line.chars.toList.reverse
  rw [List.length_reverse, hlength, ← hlast] at hle
  rw [trimmed, sliceOf_eq hfirst (Nat.le_refl _), ok_bind, hrest, minus_eq hle, ok_bind, hlast,
    ← hlength]
  rfl

/-- A block is closed by the line below or further down. -/
theorem blockEnd?_of_lt {index : Nat} (tag : List Char) (h : index + 1 < file.lineCount) :
    file.blockEnd? index tag =
      if (file.line (index + 1)).closesBlock tag then some (index + 1)
      else file.blockEnd? (index + 1) tag := by
  have hsize : index + 1 < file.lines.size := h
  rw [File.blockEnd?, File.findLine?, dif_pos hsize, ← File.line_eq_getElem hsize]
  rfl

theorem blockEnd?_of_not_lt {index : Nat} (tag : List Char) (h : ¬index + 1 < file.lineCount) :
    file.blockEnd? index tag = none := by
  have hsize : ¬index + 1 < file.lines.size := h
  rw [File.blockEnd?, File.findLine?, dif_neg hsize]

theorem skipWhile_true (file : File) (index : Nat) :
    file.skipWhile ⟨index, 0⟩ (fun _ => true) = file.lineEnd index := by
  have hrest : (file.rest ⟨index, 0⟩ ++ []).takeWhile (fun _ => true) =
      file.rest ⟨index, 0⟩ ++ [] := List.takeWhile_append_of_pos fun _ _ => rfl
  rw [List.append_nil] at hrest
  rw [File.skipWhile, hrest, File.rest, List.drop_zero, Array.length_toList, Position.right,
    Nat.zero_add]
  rfl

/-- A line that closes a block can be cut at the blanks around it. -/
theorem finish_trimmed {index : Nat} (hindex : index < file.lineCount)
    (h : ∃ c ∈ (file.line index).chars.toList, isBlank c = false) :
    ∃ text, finish file ⟨index, ((file.line index).chars.toList.takeWhile isBlank).length⟩
        ⟨index, trimmedLength (file.line index).chars.toList⟩ =
      .ok (text, file.trimmedLine index) := by
  have hlt := length_takeWhile_lt_trimmedLength h
  have hle := trimmedLength_le (file.line index).chars.toList
  have hadd := Nat.add_sub_cancel' (Nat.le_of_lt hlt)
  rw [Array.length_toList] at hle
  let start : Position := ⟨index, ((file.line index).chars.toList.takeWhile isBlank).length⟩
  have hstart : file.Holds start := ⟨hindex, Nat.le_trans (Nat.le_of_lt hlt) hle⟩
  have hrest : trimmedLength (file.line index).chars.toList - start.column ≤
      (file.rest start).length := by
    rw [File.length_rest]
    exact Nat.sub_le_sub_right hle _
  have hcut := finish_right hstart hrest
  rw [Position.right, File.stretch, hadd] at hcut
  exact ⟨_, hcut⟩

/-- The block that is found below a line, if the lines above belong to its body. -/
def blockBelow (file : File) (head : DirectiveHead) (tag : Token) (above : List Line)
    (line : Nat) : Found Directive :=
  match file.blockEnd? line tag.text.toList with
  | none =>
    let opener := Excerpt.union [Node.excerpt head, tag.excerpt]
    ⟨.error ((DirectiveFault.unclosedBlock tag.text).reportFrom
      (file.pointAt file.endPosition) opener), file.endPosition⟩
  | some closer =>
    let body := above ++ (file.lines.extract (line + 1) closer).toList
    ⟨.ok (.inlineBlock ⟨head, tag, file.blockBody? body, file.trimmedLine closer⟩),
      file.lineEnd closer⟩

/-- If the line below does not close the block it belongs to its body. -/
theorem blockBelow_of_lt (head : DirectiveHead) (tag : Token) (above : List Line) {line : Nat}
    (h : line + 1 < file.lineCount)
    (hcloses : ¬(file.line (line + 1)).closesBlock tag.text.toList = true) :
    blockBelow file head tag above line =
      blockBelow file head tag (above ++ [file.line (line + 1)]) (line + 1) := by
  rw [blockBelow, blockBelow, blockEnd?_of_lt _ h, if_neg hcloses]
  cases hend : file.blockEnd? (line + 1) tag.text.toList with
  | none => rfl
  | some closer =>
      have hlt : line + 1 < closer := (File.blockEnd?_bounds hend).1
      have hle : closer ≤ file.lines.size := Nat.le_of_lt (File.lt_size_of_findLine? hend).2
      have hbody : (file.lines.extract (line + 1) closer).toList =
          file.line (line + 1) :: (file.lines.extract (line + 1 + 1) closer).toList := by
        have hcount : closer - (line + 1) = closer - (line + 1 + 1) + 1 := by omega
        rw [File.extract_eq_map_line (Nat.le_of_lt hlt) hle, File.extract_eq_map_line hlt hle,
          hcount, List.range'_succ, List.map_cons]
      simp only [hbody, List.append_assoc, List.singleton_append]

/-- Below its opening line a block goes on to the first line that closes it. -/
theorem blockFrom_eq (hfile : file.Numbered) {head : DirectiveHead} {tag : Token}
    (hhead : ∀ e ∈ leaves head, e.Inside file) (htag : tag.excerpt.Inside file)
    (hp : file.Holds p) {above : List Line}
    (habove : ∀ l ∈ above, (Excerpt.ofHighlight file.name l ⟨0, l.length⟩).Inside file) :
    blockFrom file head tag p above
        (above.map fun l => .ofHighlight file.name l ⟨0, l.length⟩) =
      .ok (blockBelow file head tag above p.line) := by
  have hpos : 0 < file.lineCount := Nat.zero_lt_of_lt hp.line_lt
  induction hleft : file.lastIndex - p.line generalizing p above with
  | zero =>
      have hlast : ¬p.line < file.lastIndex := by omega
      have hhead' := Leafy.inside_excerpt (Anchored.leaves_ne_nil head) hhead
      have hopener : ∀ e ∈ [Node.excerpt head, tag.excerpt], e.Fits file :=
        List.forall_mem_cons.2 ⟨hhead'.toFits, List.forall_mem_singleton.2 htag.toFits⟩
      rw [blockFrom, lastLine_eq hpos, ok_bind, dif_neg hlast, endPosition_eq hpos, ok_bind,
        Guardable.excerpt_eq fun e he => (hhead e he).toFits, ok_bind, union_eq hopener, ok_bind,
        point_eq (File.holds_endPosition hpos), blockBelow,
        blockEnd?_of_not_lt _ (mt File.lt_lastIndex_iff.2 hlast)]
      rfl
  | succ n ih =>
      have hlast : p.line < file.lastIndex := by omega
      have hbelow := File.lt_lastIndex_iff.1 hlast
      have hstart := File.holds_lineStart hbelow
      have hindex : (file.line (p.line + 1)).index = p.line + 1 := hfile.index_eq _ hlast
      rw [blockFrom, lastLine_eq hpos, ok_bind, dif_pos hlast, lineOf_eq hbelow, ok_bind]
      by_cases hcloses : (file.line (p.line + 1)).closesBlock tag.text.toList = true
      · have hblank := Line.not_blank_of_closesBlock hcloses
        obtain ⟨text, hcut⟩ := finish_trimmed hbelow hblank
        have hbody : ∀ e ∈ above.map fun l => Excerpt.ofHighlight file.name l ⟨0, l.length⟩,
            e.Fits file :=
          List.forall_mem_map.2 fun l hl => (habove l hl).toFits
        rw [if_pos hcloses, trimmed_eq hblank, ok_bind]
        dsimp only
        rw [hindex, hcut, ok_bind, eatWhile_eq hstart, ok_bind, union_eq hbody, ok_bind,
          blockBelow, blockEnd?_of_lt _ hbelow, if_pos hcloses]
        have hempty : (file.lines.extract (p.line + 1) (p.line + 1)).toList = [] := by simp
        simp only [hempty, skipWhile_true, List.append_nil, File.blockBody?]
        rfl
      · have habove' : ∀ l ∈ above ++ [file.line (p.line + 1)],
            (Excerpt.ofHighlight file.name l ⟨0, l.length⟩).Inside file :=
          List.forall_mem_append.2
            ⟨habove, List.forall_mem_singleton.2 (File.inside_wholeLine hfile hbelow)⟩
        have hrest := ih hstart habove' (by dsimp only; omega)
        rw [if_neg hcloses, hindex, wholeLine_eq hbelow, ok_bind,
          blockBelow_of_lt head tag above hbelow hcloses]
        rw [List.map_append, List.map_singleton] at hrest
        exact hrest

theorem inlineBlockAt_eq (hfile : file.Numbered) {head : DirectiveHead}
    (hhead : ∀ e ∈ leaves head, e.Inside file) (hp : file.Holds p) :
    inlineBlockAt file head p = .ok (file.inlineBlockAt head p) := by
  have hstart := hp.skipBlanksInLine
  have hcount := length_takeWhile_le isWordPart (file.rest (file.skipBlanksInLine p))
  rw [inlineBlockAt, eatBlanks_eq hp, ok_bind, eatWhile_eq hstart, ok_bind, File.inlineBlockAt,
    File.skipWhile]
  dsimp only
  generalize ((file.rest (file.skipBlanksInLine p)).takeWhile isWordPart).length = count
    at hcount ⊢
  rw [finish_right hstart hcount, ok_bind]
  dsimp only
  by_cases hempty : count = 0
  · rw [if_pos ((textAt_eq_empty_iff hcount).2 hempty), if_pos hempty, charExcerpt_eq hstart, hempty]
    rfl
  · have hstop := hstart.right hcount
    rw [if_neg (mt (textAt_eq_empty_iff hcount).1 hempty), if_neg hempty, expectEndOfLine_eq hstop,
      ok_bind, lineEndAt]
    cases file.textBehind? (file.skipBlanksInLine ((file.skipBlanksInLine p).right count)) with
    | some behind => rfl
    | none =>
        have htag := File.inside_stretch hfile hstart hcount
        exact blockFrom_eq hfile hhead htag hstop.skipBlanksInLine (List.forall_mem_nil _)

/-! ## Directives -/

/-- The directive at a position that has a hash. -/
def directiveAt (registry : Registry) (file : File) (p : Position) :
    Guarded (Found Directive) := do
  if ← onlyBlanksBefore file p then
    let (hash, start) ← take file p (.punctuation .hash)
    let stop ← eatWhile file start isDirectiveNamePart
    let (text, excerpt) ← finish file start stop
    if text = "" then
      let place ← charExcerpt file start
      return ⟨.error (DirectiveFault.missingName.report place), stop⟩
    else
      match registry.find? text with
      | none =>
        return ⟨.error ((DirectiveFault.unknownName text registry.names).report excerpt), stop⟩
      | some kind =>
        let head : DirectiveHead := ⟨hash, ⟨.identifier, text, excerpt⟩⟩
        match kind with
        | .inclusion => inclusionAt file head stop
        | .inlineBlock => inlineBlockAt file head stop
  else
    let place ← charExcerpt file p
    return ⟨.error (DirectiveFault.misplaced.report place), p⟩

theorem directiveAt_eq (hfile : file.Numbered) (registry : Registry) (hp : file.Holds p)
    (hline : file.atLineEnd p = false) :
    directiveAt registry file p = .ok (file.directiveAt registry p) := by
  rw [directiveAt, onlyBlanksBefore_eq hp, ok_bind, File.directiveAt]
  by_cases hblank : file.onlyBlanksBefore p = true
  · have hstart := hp.right_one hline
    have hcount := length_takeWhile_le isDirectiveNamePart (file.rest (p.right 1))
    rw [if_pos hblank, if_pos hblank, take_eq hp hline, ok_bind]
    dsimp only
    rw [eatWhile_eq hstart, ok_bind, File.skipWhile]
    generalize ((file.rest (p.right 1)).takeWhile isDirectiveNamePart).length = count at hcount ⊢
    have hstop := hstart.right hcount
    rw [finish_right hstart hcount, ok_bind]
    dsimp only
    by_cases hempty : count = 0
    · rw [if_pos ((textAt_eq_empty_iff hcount).2 hempty), if_pos hempty, charExcerpt_eq hstart,
        hempty]
      rfl
    · rw [if_neg (mt (textAt_eq_empty_iff hcount).1 hempty), if_neg hempty]
      cases registry.find? (file.textAt (p.right 1) count) with
      | none => rfl
      | some kind =>
          cases kind with
          | inclusion => exact inclusionAt_eq hfile _ hstop
          | inlineBlock =>
              exact inlineBlockAt_eq hfile (File.inside_headAt hfile hp hline hcount) hstop
  · rw [if_neg hblank, if_neg hblank, charExcerpt_eq hp]
    rfl

end Guarded
end Kiln
