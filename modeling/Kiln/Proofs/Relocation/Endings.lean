import Kiln.Proofs.Merging.Leaves
import Kiln.Proofs.Outlines.Places
import Kiln.Proofs.Relocation.Concatenation

/-!
# Line endings

How a line ends is shown in excerpts, and nothing else depends on it.  A file is a part of the
file without its terminators, each line standing for the same one without a terminator.  So what
is read from either is the same but for the lines shown; and two files that differ in their
endings only are read alike, as they are one file without their terminators.
-/

namespace Kiln

open Shown

/-! ## Outlines on other lines -/

section Outlines

variable (f : Line → Line)

theorem FunctionDecl.outline_mapLines (d : FunctionDecl) : (mapLines f d).outline = d.outline := by
  rw [← FunctionDecl.outline_detach, detach_mapLines, FunctionDecl.outline_detach]

theorem InlineBlock.outline_mapLines (b : InlineBlock) : (mapLines f b).outline = b.outline := by
  have hbody : (mapLines f b).body = b.body.map (mapLines f) := rfl
  have hlines : ∀ body : BlockBody,
      (mapLines f body).excerpt.spans.size = body.excerpt.spans.size := fun _ => Array.size_map
  rw [outline, outline, hbody, Option.map_map]
  simp only [Function.comp_def, hlines]
  rfl

theorem Declaration.outline_mapLines (d : Declaration) : (mapLines f d).outline = d.outline := by
  cases d with
  | function d => exact d.outline_mapLines f
  | directive d =>
      cases d with
      | inclusion i => rfl
      | inlineBlock b => exact b.outline_mapLines f

end Outlines

/-! ## Documents on other lines -/

instance : Shown Document where
  mapLines f d := ⟨d.declarations.map (mapLines f)⟩
  detach_mapLines f d := congrArg Document.mk (detachAll_map f d.declarations)
  excerpt_mapLines h d := union_of_map h (excerpts_map h d.declarations)

theorem Document.outline_mapLines (f : Line → Line) (d : Document) :
    (mapLines f d).outline = d.outline := by
  have hrows : (d.declarations.map (mapLines f)).map Declaration.outline =
      d.declarations.map Declaration.outline := by
    rw [List.map_map]
    exact List.map_congr_left fun declaration _ => declaration.outline_mapLines f
  exact congrArg String.join hrows

theorem SyntaxFault.report_mapLines {f : Line → Line} {offset : Nat} (hf : Lowers f offset)
    (fault : SyntaxFault) (ending : Excerpt) :
    (fault.mapLines f).report (ending.mapLines f) = (fault.report ending).mapLines f := by
  obtain ⟨above, habove, hreport⟩ := fault.report_below hf ending []
  rw [List.subset_nil.1 habove] at hreport
  exact hreport

/-! ## Leaves on other lines -/

theorem Directive.leaves_mapLines (f : Line → Line) (d : Directive) :
    leaves (mapLines f d) = (leaves d).map (Excerpt.mapLines f) := by
  cases d with
  | inclusion i => rfl
  | inlineBlock b =>
      obtain ⟨head, tag, body, ending⟩ := b
      cases body <;> rfl

theorem Item.leaves_mapLines (f : Line → Line) (item : Item) :
    (item.mapLines f).leaves = item.leaves.map (Excerpt.mapLines f) := by
  cases item with
  | token t => rfl
  | directive d => exact d.leaves_mapLines f

/-! ## Positions on other lines -/

theorem Excerpt.start?_mapLines {f : Line → Line} (hf : Lowers f 0) (e : Excerpt) :
    (e.mapLines f).start? = e.start? := by
  have hnumber : ∀ line, (f line).number = line.number := fun line =>
    congrArg (· + 1) (hf.index_eq line)
  rw [start?, mapLines, Array.getElem?_map, Option.map_map]
  refine congrArg (Option.map · e.spans[0]?) (funext fun span => ?_)
  exact congrArg (·, span.firstColumn?.getD 0 + 1) (hnumber span.line)

theorem Excerpt.position?_mapLines {f : Line → Line} (hf : Lowers f 0) (e : Excerpt) :
    (e.mapLines f).position? = e.position? := by
  rw [position?, position?, start?_mapLines hf]
  rfl

/-- What a notice says, and where. -/
def Notice.gist (n : Notice) :
    Severity × Option Code × String × Option String × Option String :=
  (n.severity, n.code, n.message, n.note, n.excerpt.position?)

theorem Notice.gist_mapLines {f : Line → Line} (hf : Lowers f 0) (n : Notice) :
    (n.mapLines f).gist = n.gist := by
  rw [gist, mapLines, Excerpt.position?_mapLines hf]
  rfl

theorem Diagnostic.map_gist_mapLines {f : Line → Line} (hf : Lowers f 0) (d : Diagnostic) :
    (d.mapLines f).chain.map Notice.gist = d.chain.map Notice.gist := by
  have hchain : (d.mapLines f).chain = d.chain.map (Notice.mapLines f) := rfl
  rw [hchain, List.map_map]
  exact List.map_congr_left fun n _ => n.gist_mapLines hf

/-! ## Files without terminators -/

/-- The line without its terminator. -/
def Line.unended (line : Line) : Line := { line with ending := .unterminated }

theorem lowers_unended : Lowers Line.unended 0 := ⟨fun _ => rfl, fun _ => rfl⟩

namespace File

variable (file : File)

/-- The file with all terminators left out. -/
def unended : File := ⟨file.name, file.lines.map Line.unended⟩

theorem lineCount_unended : file.unended.lineCount = file.lineCount := Array.size_map

theorem line_unended (index : Nat) : file.unended.line index = (file.line index).unended := by
  rw [line, line, Array.getD_eq_getD_getElem?, Array.getD_eq_getD_getElem?, unended,
    Array.getElem?_map]
  cases file.lines[index]? <;> rfl

/-- The file stands for the one without terminators. -/
theorem partOf_unended : file.PartOf file.unended 0 Line.unended where
  name_eq := rfl
  line_eq index _ := file.line_unended index
  chars_eq _ _ := rfl
  bound := Nat.le_of_eq ((Nat.zero_add _).trans file.lineCount_unended.symm)

theorem items_of_lineCount_eq_zero (registry : Registry) (h : file.lineCount = 0) :
    file.items registry = .ok [] := by
  have hrest : file.rest ⟨0, 0⟩ = [] := by
    have hlines : file.lines = #[] := Array.eq_empty_of_size_eq_zero h
    rw [rest, lineAt, line, hlines]
    rfl
  have hread : file.items registry = piecesOfLine (file.itemAt_advances registry) 1 :=
    piecesFrom_lineEnd hrest
  rw [hread, piecesOfLine, if_neg (by omega)]

theorem items_unended (registry : Registry) :
    file.unended.items registry =
      ((file.items registry).map (List.map (Item.mapLines Line.unended))).mapError
        (Diagnostic.mapLines Line.unended) := by
  have hcount := file.lineCount_unended
  by_cases hpos : 0 < file.lineCount
  · have hread : file.unended.items registry =
        piecesOfLine (file.unended.itemAt_advances registry) 0 := by
      rw [piecesOfLine, if_pos (hcount ▸ hpos)]
      rfl
    rw [hread]
    exact file.partOf_unended.itemsOfLine_last lowers_unended registry hpos (by omega)
  · rw [items_of_lineCount_eq_zero _ registry (by omega),
      items_of_lineCount_eq_zero _ registry (by omega)]
    rfl

theorem surround_unended (p : Position) (e : Excerpt) (before after : Nat) :
    file.unended.surround p (e.mapLines Line.unended) before after =
      (file.surround p e before after).mapLines Line.unended := by
  have hfirst : (e.mapLines Line.unended).spans[0]?.map (·.line.index) =
      e.spans[0]?.map (·.line.index) := by
    rw [Excerpt.mapLines, Array.getElem?_map, Option.map_map]
    rfl
  have hlast : (e.mapLines Line.unended).spans.back?.map (·.line.index) =
      e.spans.back?.map (·.line.index) := by
    rw [Excerpt.mapLines, Array.back?_map, Option.map_map]
    rfl
  have hlines : ∀ start stop, (file.unended.lines.extract start stop).toList =
      (file.lines.extract start stop).toList.map Line.unended := by
    intro start stop
    rw [unended, ← Array.map_extract, Array.toList_map]
  rw [surround, surround, hfirst, hlast]
  simp only [hlines]
  rfl

theorem endExcerpt_unended :
    file.unended.endExcerpt = file.endExcerpt.mapLines Line.unended := by
  have hend : file.unended.endPosition = file.endPosition := by
    have hlast : file.unended.lastIndex = file.lastIndex :=
      congrArg (· - 1) file.lineCount_unended
    rw [endPosition, endPosition, hlast, lineEnd, lineEnd, line_unended]
    rfl
  have hpoint : file.unended.pointAt file.endPosition =
      (file.pointAt file.endPosition).mapLines Line.unended := by
    rw [pointAt, stretch, lineAt, line_unended, pointAt, stretch, Excerpt.mapLines_ofHighlight]
    rfl
  rw [endExcerpt, hend, hpoint, surround_unended]
  rfl

/-- What is read from the file without terminators is what is read from the file. -/
theorem parse_unended (registry : Registry) :
    file.unended.parse registry =
      ((file.parse registry).map (mapLines Line.unended)).mapError
        (Diagnostic.mapLines Line.unended) := by
  rw [parse, parse, items_unended]
  cases file.items registry with
  | error d => rfl
  | ok items =>
      show documentOfItems file.unended (items.map (Item.mapLines Line.unended)) =
        ((file.documentOfItems items).map _).mapError _
      rw [documentOfItems, documentOfItems, Document.ofItems, Document.ofItems,
        takeDeclarations_map, endExcerpt_unended]
      cases takeDeclarations items with
      | error fault =>
          exact congrArg Except.error (fault.report_mapLines lowers_unended file.endExcerpt)
      | ok ds => rfl

/-! ## Files that differ in their endings -/

variable {file} {a b : File} {registry : Registry} {d d' : Document}

/-- The files have the same name and the same lines but for their endings. -/
structure SameLines (a b : File) : Prop where
  name_eq : a.name = b.name
  lineCount_eq : a.lineCount = b.lineCount
  index_eq : ∀ i < a.lineCount, (a.line i).index = (b.line i).index
  chars_eq : ∀ i < a.lineCount, (a.line i).chars = (b.line i).chars

theorem SameLines.unended_eq (h : a.SameLines b) : a.unended = b.unended := by
  refine (File.mk.injEq ..).mpr ⟨h.name_eq, ?_⟩
  apply Array.ext
  · rw [Array.size_map, Array.size_map]
    exact h.lineCount_eq
  · intro i ha hb
    rw [Array.size_map] at ha hb
    have hline : ∀ (file : File) (hi : i < file.lines.size), file.lines[i] = file.line i := by
      intro file hi
      rw [line, Array.getD_eq_getD_getElem?, Array.getElem?_eq_getElem hi]
      rfl
    rw [Array.getElem_map, Array.getElem_map, hline a ha, hline b hb]
    exact Line.ext (h.index_eq i ha) (h.chars_eq i ha) rfl

/-- The leaves of a document that has been read are those of the items. -/
theorem leaves_of_parse (h : file.parse registry = .ok d) :
    ∃ items, file.items registry = .ok items ∧ leaves d = items.flatMap Item.leaves := by
  obtain ⟨items, hitems, hds⟩ := parse_eq_ok_iff.1 h
  refine ⟨items, hitems, ?_⟩
  rw [leaves_document, Document.items, (takeDeclarations_eq_ok_iff.1 hds).2]

theorem map_leaves_mapLines (h : file.parse registry = .ok d) :
    ∃ items, file.unended.items registry = .ok items ∧
      (leaves d).map (Excerpt.mapLines Line.unended) = items.flatMap Item.leaves := by
  obtain ⟨items, hitems, hleaves⟩ := leaves_of_parse h
  refine ⟨items.map (Item.mapLines Line.unended), ?_, ?_⟩
  · rw [items_unended, hitems]
    rfl
  · rw [hleaves, List.map_flatMap, List.flatMap_map]
    exact congrArg items.flatMap (funext fun item => (item.leaves_mapLines _).symm)

theorem SameLines.map_leaves_eq (h : a.SameLines b) (ha : a.parse registry = .ok d)
    (hb : b.parse registry = .ok d') :
    (leaves d).map (Excerpt.mapLines Line.unended) =
      (leaves d').map (Excerpt.mapLines Line.unended) := by
  obtain ⟨items, hitems, hleaves⟩ := map_leaves_mapLines ha
  obtain ⟨items', hitems', hleaves'⟩ := map_leaves_mapLines hb
  rw [h.unended_eq, hitems'] at hitems
  obtain rfl := Except.ok.inj hitems
  rw [hleaves, hleaves']

/-- How lines end has no effect on what is read: from files that differ in the endings of their
lines the same document is read, with all its leaves in the same places, or the same fault is
reported, with the same notices in the same places. -/
theorem parse_of_sameLines (registry : Registry) (h : a.SameLines b) :
    (∃ d d', a.parse registry = .ok d ∧ b.parse registry = .ok d' ∧
      Node.detach d = Node.detach d' ∧ d.outline = d'.outline ∧
      (leaves d).map Excerpt.start? = (leaves d').map Excerpt.start? ∧
      (leaves d).map (Excerpt.mapLines Line.unended) =
        (leaves d').map (Excerpt.mapLines Line.unended)) ∨
    ∃ fault fault', a.parse registry = .error fault ∧ b.parse registry = .error fault' ∧
      fault.chain.map Notice.gist = fault'.chain.map Notice.gist ∧
      fault.mapLines Line.unended = fault'.mapLines Line.unended := by
  have hparse := a.parse_unended registry
  rw [h.unended_eq, b.parse_unended registry] at hparse
  cases ha : a.parse registry with
  | ok d =>
      cases hb : b.parse registry with
      | error fault' => rw [ha, hb] at hparse; cases hparse
      | ok d' =>
          rw [ha, hb] at hparse
          have hdocument : mapLines Line.unended d' = mapLines Line.unended d :=
            Except.ok.inj hparse
          have hleaves := h.map_leaves_eq ha hb
          refine .inl ⟨d, d', rfl, rfl, ?_, ?_, ?_, hleaves⟩
          · rw [← detach_mapLines Line.unended d, ← hdocument, detach_mapLines]
          · rw [← d.outline_mapLines Line.unended, ← hdocument, d'.outline_mapLines]
          · have hstarts := congrArg (List.map Excerpt.start?) hleaves
            simpa only [List.map_map, Function.comp_def, Excerpt.start?_mapLines lowers_unended]
              using hstarts
  | error fault =>
      cases hb : b.parse registry with
      | ok d' => rw [ha, hb] at hparse; cases hparse
      | error fault' =>
          rw [ha, hb] at hparse
          have hfault : fault'.mapLines Line.unended = fault.mapLines Line.unended :=
            Except.error.inj hparse
          refine .inr ⟨fault, fault', rfl, rfl, ?_, hfault.symm⟩
          rw [← fault.map_gist_mapLines lowers_unended, ← hfault,
            fault'.map_gist_mapLines lowers_unended]

/-- A block of two lines, with line feeds. -/
def feedBlock : File := ofText "a" "#inline c\n\nx\n#end-inline c\n"

/-- The same block with other terminators. -/
def mixedBlock : File := ofText "a" "#inline c\r\n\rx\r#end-inline c"

theorem parse_of_sameLines_block :
    feedBlock.SameLines mixedBlock ∧ ∃ d d', feedBlock.parse .builtin = .ok d ∧
      mixedBlock.parse .builtin = .ok d' ∧ Node.detach d = Node.detach d' ∧
      d.outline = d'.outline := by
  have hlines : feedBlock.SameLines mixedBlock :=
    ⟨rfl, by decide +kernel, by decide +kernel, by decide +kernel⟩
  have hok : (feedBlock.parse .builtin).isOk = true := by decide +kernel
  refine ⟨hlines, ?_⟩
  rcases parse_of_sameLines .builtin hlines with ⟨d, d', ha, hb, hdetach, houtline, -⟩ | h
  · exact ⟨d, d', ha, hb, hdetach, houtline⟩
  · obtain ⟨fault, -, ha, -⟩ := h
    rw [ha] at hok
    cases hok

end File
end Kiln
