import Kiln.Proofs.Coverage.Blocks
import Kiln.Proofs.Relocation.LineByLine
import Kiln.Proofs.Relocation.Trees

/-!
# Directives of parts

An inclusion is read from its own line.  A block is read up to the line that closes it,
so what a part of a file says of a block goes for the whole file if the part has that line,
or if nothing comes below the part.
-/

namespace Kiln

variable {f : Line → Line} {offset : Nat}

/-! ## Findings and faults -/

/-- What was found on lines, on others that begin a number of lines below. -/
def Found.mapLines (f : Line → Line) (offset : Nat) (found : Found Directive) :
    Found Directive :=
  ⟨(found.outcome.map (Kiln.mapLines f)).mapError (Diagnostic.mapLines f),
    found.stop.down offset⟩

theorem DirectiveFault.report_mapLines (f : Line → Line) (fault : DirectiveFault)
    (place : Excerpt) : fault.report (place.mapLines f) = (fault.report place).mapLines f := by
  cases fault <;> rfl

theorem DirectiveFault.reportFrom_mapLines (f : Line → Line) (fault : DirectiveFault)
    (place origin : Excerpt) :
    fault.reportFrom (place.mapLines f) (origin.mapLines f) =
      (fault.reportFrom place origin).mapLines f := by
  cases fault <;> rfl

namespace File
namespace PartOf

variable {part whole : File} (h : part.PartOf whole offset f) {p : Position}

section OneLine

variable (hp : p.line < part.lineCount)

include h hp

/-! ## Looking at a line -/

theorem skipBlanksInLine :
    whole.skipBlanksInLine (p.down offset) = (part.skipBlanksInLine p).down offset := by
  rw [File.skipBlanksInLine, skipWhile, h.rest hp]
  rfl

theorem textBehind? : whole.textBehind? (p.down offset) = part.textBehind? p := by
  rw [File.textBehind?, startsWith, h.atLineEnd hp, h.rest hp, h.chars_lineAt hp]
  rfl

theorem onlyBlanksBefore : whole.onlyBlanksBefore (p.down offset) = part.onlyBlanksBefore p := by
  rw [File.onlyBlanksBefore, Line.slice, h.chars_lineAt hp]
  rfl

theorem token (kind : Kind) (count : Nat) :
    (⟨kind, whole.textAt (p.down offset) count, whole.stretch (p.down offset) count⟩ : Token) =
      mapLines f ⟨kind, part.textAt p count, part.stretch p count⟩ := by
  rw [h.textAt hp, h.stretch hp]
  rfl

/-! ## Inclusions -/

theorem closeInclusion (i : Inclusion) :
    whole.closeInclusion (mapLines f i) (p.down offset) =
      (part.closeInclusion i p).mapLines f offset := by
  have hstop : (part.skipBlanksInLine p).line < part.lineCount := hp
  unfold File.closeInclusion
  dsimp only
  rw [h.skipBlanksInLine hp, h.textBehind? hstop]
  cases part.textBehind? (part.skipBlanksInLine p) with
  | none => rfl
  | some count =>
      dsimp only
      rw [h.textAt hstop, h.stretch hstop, DirectiveFault.report_mapLines]
      rfl

section Lowered

variable (hf : Lowers f offset)

include hf

theorem pathAt (head : DirectiveHead) (quote : PathQuote) :
    whole.pathAt (mapLines f head) quote (p.down offset) =
      (part.pathAt head quote p).mapLines f offset := by
  have hstart : (p.right 1).line < part.lineCount := hp
  have hstop : ∀ count, ((p.right 1).right count).line < part.lineCount := fun _ => hp
  unfold File.pathAt
  dsimp only
  rw [← Position.right_down, h.rest hstart, ← Position.right_down, h.charAt (hstop _)]
  generalize ((part.rest (p.right 1)).takeWhile fun c => !closesPath c).length = count
  cases part.charAt ((p.right 1).right count) with
  | none =>
      dsimp only
      rw [h.pointAt (hstop count), h.stretch hp, DirectiveFault.reportFrom_mapLines]
      rfl
  | some c =>
      dsimp only
      by_cases hcloser : c = quote.closer
      · rw [if_pos hcloser, if_pos hcloser]
        by_cases hcount : count = 0
        · have hquotes : Excerpt.union [(part.stretch p 1).mapLines f,
              (part.stretch ((p.right 1).right count) 1).mapLines f] = (Excerpt.union _).mapLines f :=
            Excerpt.union_mapLines hf [_, _]
          rw [if_pos hcount, if_pos hcount, h.stretch hp, h.stretch (hstop count), hquotes,
            DirectiveFault.report_mapLines]
          rfl
        · rw [if_neg hcount, if_neg hcount, h.token hp, h.token hstart, h.token (hstop count)]
          exact closeInclusion h (p := ((p.right 1).right count).right 1) hp
            (part.inclusionOf head quote count p ((p.right 1).right count))
      · rw [if_neg hcloser, if_neg hcloser, h.charExcerpt (hstop count), h.stretch hp,
          DirectiveFault.reportFrom_mapLines]
        rfl

theorem inclusionAt (head : DirectiveHead) :
    whole.inclusionAt (mapLines f head) (p.down offset) =
      (part.inclusionAt head p).mapLines f offset := by
  have hstart : (part.skipBlanksInLine p).line < part.lineCount := hp
  unfold File.inclusionAt
  dsimp only
  rw [h.skipBlanksInLine hp, h.charAt hstart]
  cases part.charAt (part.skipBlanksInLine p) with
  | none =>
      dsimp only
      rw [h.pointAt hstart, DirectiveFault.report_mapLines]
      rfl
  | some c =>
      dsimp only
      cases PathQuote.ofOpener? c with
      | none =>
          dsimp only
          rw [h.charExcerpt hstart, DirectiveFault.report_mapLines]
          rfl
      | some quote => exact h.pathAt hstart hf head quote

end Lowered
end OneLine

/-! ## Blocks -/

section Blocks

include h

/-- The first accepted line is the part's, if the part has one. -/
theorem findLine? {accept : Line → Bool} (haccept : ∀ line, accept (f line) = accept line)
    {index : Nat} (hindex : index ≤ part.lineCount) :
    whole.findLine? accept (index + offset) =
      ((part.findLine? accept index).map (· + offset)).or
        (whole.findLine? accept (part.lineCount + offset)) := by
  fun_induction part.findLine? accept index with
  | case1 index hlt haccepted =>
      obtain ⟨hwhole, hline⟩ := h.getElem hlt
      rw [File.findLine?, dif_pos hwhole, hline, haccept, if_pos haccepted]
      rfl
  | case2 index hlt haccepted ih =>
      obtain ⟨hwhole, hline⟩ := h.getElem hlt
      rw [File.findLine?, dif_pos hwhole, hline, haccept, if_neg haccepted, Nat.add_right_comm]
      exact ih hlt
  | case3 index hge =>
      have heq : index = part.lineCount := Nat.le_antisymm hindex (Nat.not_lt.1 hge)
      rw [heq]
      rfl

theorem extract {first last : Nat} (hle : first ≤ last) (hlast : last ≤ part.lineCount) :
    (whole.lines.extract (first + offset) (last + offset)).toList =
      (part.lines.extract first last).toList.map f := by
  have hbound := h.bound
  have hcount : last + offset - (first + offset) = last - first := by omega
  rw [extract_eq_map_line (by omega) (by rw [← lineCount]; omega), extract_eq_map_line hle hlast,
    hcount, List.map_map, Nat.add_comm first, ← List.map_add_range', List.map_map]
  apply List.map_congr_left
  intro i hi
  rw [List.mem_range'_1] at hi
  rw [Function.comp_apply, Nat.add_comm, h.line_eq i (by omega)]
  rfl

theorem lineEnd {index : Nat} (hindex : index < part.lineCount) :
    whole.lineEnd (index + offset) = (part.lineEnd index).down offset := by
  rw [File.lineEnd, Line.length, h.line_eq index hindex, h.chars_eq index hindex]
  rfl

theorem endPosition (hpos : 0 < part.lineCount)
    (hlast : offset + part.lineCount = whole.lineCount) :
    whole.endPosition = part.endPosition.down offset := by
  have hindex : whole.lastIndex = part.lastIndex + offset := by
    simp only [lastIndex, lineCount] at hpos hlast ⊢
    omega
  rw [File.endPosition, hindex]
  exact h.lineEnd (Nat.sub_one_lt_of_lt hpos)

variable (hf : Lowers f offset)

include hf

theorem blockBody? (lines : List Line) :
    whole.blockBody? (lines.map f) = (part.blockBody? lines).map (mapLines f) := by
  have htext : ∀ line, (f line).text = line.text := by
    intro line
    rw [Line.text_eq, Line.text_eq, hf.chars_eq]
  have hexcerpt : ∀ line, Excerpt.ofHighlight whole.name (f line) ⟨0, (f line).length⟩ =
      (Excerpt.ofHighlight part.name line ⟨0, line.length⟩).mapLines f := by
    intro line
    rw [Excerpt.mapLines_ofHighlight, h.name_eq, Line.length, hf.chars_eq]
    rfl
  have hunion := Excerpt.union_mapLines hf
    (lines.map fun line => .ofHighlight part.name line ⟨0, line.length⟩)
  rw [List.map_map] at hunion
  cases lines with
  | nil => rfl
  | cons line lines =>
      simp only [File.blockBody?, List.isEmpty_map, List.isEmpty_cons, Bool.false_eq_true, if_false,
        Option.map_some, List.map_map, Function.comp_def, htext, hexcerpt]
      exact congrArg some ((BlockBody.mk.injEq ..).mpr ⟨rfl, hunion⟩)

theorem trimmedLine {index : Nat} (hindex : index < part.lineCount) :
    whole.trimmedLine (index + offset) = (part.trimmedLine index).mapLines f := by
  rw [File.trimmedLine, File.trimmedLine, Excerpt.mapLines_ofHighlight, h.line_eq index hindex,
    hf.chars_eq, h.name_eq]

/-- A block of a part is one of the whole, and a block that is not closed in a part is
closed nowhere if the part comes last. -/
theorem blockAt {head : DirectiveHead} {tag : Token} {line : Nat} (hline : line < part.lineCount)
    (hends : offset + part.lineCount = whole.lineCount ∨
      ∃ d, (part.blockAt head tag line).outcome = .ok d) :
    whole.blockAt (mapLines f head) (mapLines f tag) (line + offset) =
      (part.blockAt head tag line).mapLines f offset := by
  have hcloses : ∀ l : Line, (f l).closesBlock tag.text.toList = l.closesBlock tag.text.toList := by
    intro l
    rw [Line.closesBlock, hf.chars_eq]
    rfl
  have hcloser : whole.blockEnd? (line + offset) tag.text.toList =
      ((part.blockEnd? line tag.text.toList).map (· + offset)).or
        (whole.findLine? (fun l => l.closesBlock tag.text.toList) (part.lineCount + offset)) := by
    rw [blockEnd?, Nat.add_right_comm]
    exact h.findLine? hcloses hline
  have htext : (mapLines f tag).text = tag.text := rfl
  unfold File.blockAt at hends ⊢
  rw [htext, hcloser]
  cases hfound : part.blockEnd? line tag.text.toList with
  | some closer =>
      obtain ⟨hlt, hle⟩ := blockEnd?_bounds hfound
      have hcount : closer < part.lineCount := by
        simp only [lastIndex, lineCount] at hle hline ⊢
        omega
      dsimp only [Option.map_some, Option.some_or]
      rw [Nat.add_right_comm, h.extract hlt (Nat.le_of_lt hcount), h.blockBody? hf,
        h.trimmedLine hf hcount, h.lineEnd hcount]
      rfl
  | none =>
      rw [hfound] at hends
      have hlast : offset + part.lineCount = whole.lineCount := by
        rcases hends with hlast | ⟨d, hd⟩
        · exact hlast
        · cases hd
      have hpos : 0 < part.lineCount := Nat.zero_lt_of_lt hline
      have hnone : whole.findLine? (fun l => l.closesBlock tag.text.toList)
          (part.lineCount + offset) = none := by
        rw [File.findLine?, dif_neg]
        rw [← lineCount]
        omega
      have hopener : Excerpt.union [Node.excerpt (mapLines f head), (mapLines f tag).excerpt] =
          (Excerpt.union [Node.excerpt head, tag.excerpt]).mapLines f := by
        rw [Shown.excerpt_mapLines hf]
        exact Excerpt.union_mapLines hf [_, _]
      rw [hnone]
      dsimp only [Option.map_none, Option.none_or]
      rw [h.endPosition hpos hlast, h.pointAt (Nat.sub_one_lt_of_lt hpos), hopener,
        DirectiveFault.reportFrom_mapLines]
      rfl

theorem inlineBlockAt {head : DirectiveHead} {p : Position} (hp : p.line < part.lineCount)
    (hends : offset + part.lineCount = whole.lineCount ∨
      ∃ d, (part.inlineBlockAt head p).outcome = .ok d) :
    whole.inlineBlockAt (mapLines f head) (p.down offset) =
      (part.inlineBlockAt head p).mapLines f offset := by
  have hstart : (part.skipBlanksInLine p).line < part.lineCount := hp
  unfold File.inlineBlockAt at hends ⊢
  dsimp only at hends ⊢
  rw [h.skipBlanksInLine hp, h.rest hstart]
  generalize ((part.rest (part.skipBlanksInLine p)).takeWhile isWordPart).length = count
    at hends ⊢
  by_cases hcount : count = 0
  · rw [if_pos hcount, if_pos hcount, h.charExcerpt hstart, DirectiveFault.report_mapLines]
    rfl
  · have hright : ((part.skipBlanksInLine p).right count).line < part.lineCount := hp
    have hstop : (part.skipBlanksInLine ((part.skipBlanksInLine p).right count)).line <
        part.lineCount := hp
    rw [if_neg hcount] at hends
    rw [if_neg hcount, if_neg hcount, ← Position.right_down, h.skipBlanksInLine hright,
      h.textBehind? hstop, h.token hstart]
    cases hbehind : part.textBehind?
        (part.skipBlanksInLine ((part.skipBlanksInLine p).right count)) with
    | some behind =>
        dsimp only
        rw [h.textAt hstop, h.stretch hstop, DirectiveFault.report_mapLines]
        rfl
    | none =>
        rw [hbehind] at hends
        exact h.blockAt hf hp hends

/-! ## Directives and items -/

theorem directiveOfKindAt {kind : DirectiveKind} {head : DirectiveHead} {p : Position}
    (hp : p.line < part.lineCount)
    (hends : offset + part.lineCount = whole.lineCount ∨
      ∃ d, (part.directiveOfKindAt kind head p).outcome = .ok d) :
    whole.directiveOfKindAt kind (mapLines f head) (p.down offset) =
      (part.directiveOfKindAt kind head p).mapLines f offset := by
  cases kind with
  | inclusion => exact h.inclusionAt hp hf head
  | inlineBlock => exact h.inlineBlockAt hf hp hends

/-- A directive of a part is one of the whole, and what is no directive of the part is
none of the whole if the part comes last. -/
theorem directiveAt {registry : Registry} {p : Position} (hp : p.line < part.lineCount)
    (hends : offset + part.lineCount = whole.lineCount ∨
      ∃ d, (part.directiveAt registry p).outcome = .ok d) :
    whole.directiveAt registry (p.down offset) =
      (part.directiveAt registry p).mapLines f offset := by
  have hstart : (p.right 1).line < part.lineCount := hp
  unfold File.directiveAt at hends ⊢
  dsimp only at hends ⊢
  rw [h.onlyBlanksBefore hp, ← Position.right_down, h.rest hstart]
  generalize ((part.rest (p.right 1)).takeWhile isDirectiveNamePart).length = count at hends ⊢
  by_cases hblanks : part.onlyBlanksBefore p = true
  · rw [if_pos hblanks] at hends
    rw [if_pos hblanks, if_pos hblanks]
    by_cases hcount : count = 0
    · rw [if_pos hcount, if_pos hcount, h.charExcerpt hstart, DirectiveFault.report_mapLines]
      rfl
    · have hstop : ((p.right 1).right count).line < part.lineCount := hp
      rw [if_neg hcount] at hends
      rw [if_neg hcount, if_neg hcount, h.token hp, h.textAt hstart, h.stretch hstart]
      cases hkind : registry.find? (part.textAt (p.right 1) count) with
      | none =>
          dsimp only
          rw [DirectiveFault.report_mapLines]
          rfl
      | some kind =>
          rw [hkind] at hends
          exact h.directiveOfKindAt hf hstop hends
  · rw [if_neg hblanks, if_neg hblanks, h.charExcerpt hp, DirectiveFault.report_mapLines]
    rfl

/-- An item of a part is an item of the whole. -/
theorem transportsPieces_itemAt (registry : Registry) :
    TransportsPieces part whole offset (part.itemAt registry) (whole.itemAt registry)
      (Item.mapLines f) := by
  intro p item hp hitem
  have hrest : (whole.cursor (p.down offset)).rest = (part.cursor p).rest := h.rest hp
  unfold itemAt at hitem ⊢
  rw [hrest]
  by_cases hhash : (part.cursor p).rest.head? = some '#'
  · rw [if_pos hhash] at hitem
    rw [if_pos hhash, if_pos hhash]
    obtain ⟨d, hd, rfl⟩ := map_eq_ok_iff.1 hitem
    have hd : (part.directiveAt registry p).outcome = .ok d := hd
    rw [position_cursor, h.directiveAt hf hp (.inr ⟨d, hd⟩)]
    refine ⟨map_eq_ok_iff.2 ⟨mapLines f d, ?_, rfl⟩, rfl⟩
    rw [Found.mapLines, hd]
    rfl
  · rw [if_neg hhash] at hitem
    rw [if_neg hhash, if_neg hhash]
    obtain ⟨t, ht, rfl⟩ := map_eq_ok_iff.1 hitem
    obtain ⟨hmoved, hstop⟩ := h.transportsPieces_tokenAt p t hp ht
    exact ⟨map_eq_ok_iff.2 ⟨_, hmoved, rfl⟩, hstop⟩

/-- What is no item of the part that comes last is none of the whole. -/
theorem transportsFaults_itemAt (registry : Registry)
    (hlast : offset + part.lineCount = whole.lineCount) :
    TransportsFaults part whole offset (part.itemAt registry) (whole.itemAt registry)
      (Diagnostic.mapLines f) := by
  intro p d hp hfault
  have hrest : (whole.cursor (p.down offset)).rest = (part.cursor p).rest := h.rest hp
  unfold itemAt at hfault ⊢
  rw [hrest]
  by_cases hhash : (part.cursor p).rest.head? = some '#'
  · rw [if_pos hhash] at hfault
    rw [if_pos hhash]
    have hd : (part.directiveAt registry p).outcome = .error d := map_eq_error_iff.1 hfault
    rw [position_cursor, h.directiveAt hf hp (.inl hlast)]
    refine map_eq_error_iff.2 ?_
    rw [Found.mapLines, hd]
    rfl
  · rw [if_neg hhash] at hfault
    rw [if_neg hhash]
    exact map_eq_error_iff.2 (h.transportsFaults_tokenAt p d hp (map_eq_error_iff.1 hfault))

/-- From the first line of the part that comes last on, the items of the whole are those of the
part, and so is what is reported. -/
theorem itemsOfLine_last (registry : Registry) (hpos : 0 < part.lineCount)
    (hlast : offset + part.lineCount = whole.lineCount) :
    piecesOfLine (whole.itemAt_advances registry) offset =
      ((part.items registry).map (List.map (Item.mapLines f))).mapError
        (Diagnostic.mapLines f) := by
  have hpieces := h.transportsPieces_itemAt hf registry
  cases hitems : part.items registry with
  | ok items =>
      rw [h.piecesOfLine_ok hpieces hpos hitems, piecesOfLine, if_neg (by omega)]
      exact congrArg Except.ok (List.append_nil _)
  | error d =>
      have hfaults := h.transportsFaults_itemAt hf registry hlast
      exact h.piecesOfLine_error hpieces hfaults hpos hitems

end Blocks
end PartOf
end File
end Kiln
