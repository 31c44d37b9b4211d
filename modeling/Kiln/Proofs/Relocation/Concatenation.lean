import Kiln.Proofs.Relocation.Directives
import Kiln.Proofs.Relocation.Lines
import Kiln.Proofs.Relocation.Parsing
import Kiln.Proofs.RoundTrip.Reading

/-!
# Documents behind one another

A text that is a document of its own can be put in front of another one, with a line feed
between them.  What is read is the declarations of both, in their places; and if the
second text is no document the whole is none, for the same reason.

Only a fault at the end of the file may look different: as many lines lead up to it as
there are, and some of them may be lines of the first text.
-/

namespace Kiln

/-! ## Faults on other lines -/

/-- An excerpt with further lines above it. -/
def Excerpt.below (lines : List Line) (e : Excerpt) : Excerpt :=
  { e with leading := lines ++ e.leading }

/-- A diagnostic with further lines above what it shows. -/
def Diagnostic.below (lines : List Line) (d : Diagnostic) : Diagnostic :=
  { d with main := { d.main with excerpt := d.main.excerpt.below lines } }

/-- A fault in items on other lines is reported there; only the report of a fault behind
all items shows what leads up to their end. -/
theorem SyntaxFault.report_below {f : Line → Line} {offset : Nat} (hf : Lowers f offset)
    (fault : SyntaxFault) (ending : Excerpt) (lines : List Line) :
    ∃ above, above ⊆ lines ∧
      (fault.mapLines f).report ((ending.mapLines f).below lines) =
        ((fault.report ending).mapLines f).below above := by
  obtain ⟨wanted, rest⟩ := fault
  cases rest with
  | nil => exact ⟨lines, List.Subset.refl lines, rfl⟩
  | cons item rest =>
      refine ⟨[], List.nil_subset lines, ?_⟩
      cases item with
      | token t => rfl
      | directive d =>
          show Diagnostic.withNote (.error .nestedDirective _ (Node.excerpt (Kiln.mapLines f d)))
            _ = _
          rw [Shown.excerpt_mapLines hf]
          rfl

namespace File

/-! ## The end of a file -/

theorem endExcerpt_eq {file : File} (hfile : file.Numbered) :
    file.endExcerpt =
      { file.pointAt file.endPosition with
        leading :=
          (file.lines.extract (file.lastIndex - linesBeforeEnd) file.lastIndex).toList } := by
  have hindex : (file.line file.lastIndex).index = file.lastIndex :=
    hfile.index_eq _ (Nat.le_refl _)
  simp [endExcerpt, surround, pointAt, stretch, Excerpt.ofHighlight, Excerpt.ofSpans, lineAt,
    endPosition, lineEnd, hindex]

section Append

variable (name a : String) {b : String} (hb : b ≠ "")

include hb

/-- The end of the whole is the end of the second text, and lines of the first one may
lead up to it as well. -/
theorem endExcerpt_append :
    ∃ lines : List Line,
      (∀ line ∈ lines, line.index < (ofText name (a ++ "\n")).lineCount) ∧
      (ofText name (a ++ "\n" ++ b)).endExcerpt =
        ((ofText name b).endExcerpt.mapLines
          (Line.down (ofText name (a ++ "\n")).lineCount)).below lines := by
  have hpart := partOf_down name a hb
  have hcount := lineCount_append name a hb
  have hwhole := numbered_ofText name (a ++ "\n" ++ b)
  have hfile := numbered_ofText name b
  generalize (ofText name (a ++ "\n")).lineCount = above at hpart hcount ⊢
  generalize ofText name (a ++ "\n" ++ b) = whole at hpart hcount hwhole ⊢
  generalize ofText name b = file at hpart hcount hfile ⊢
  have hpos : 0 < file.lineCount := hfile.pos
  have hlast : whole.lastIndex = file.lastIndex + above := by
    simp only [lastIndex, lineCount] at hcount hpos ⊢
    omega
  have hend : whole.pointAt whole.endPosition =
      (file.pointAt file.endPosition).mapLines (Line.down above) := by
    rw [hpart.endPosition hpos hcount.symm]
    exact hpart.pointAt (Nat.sub_one_lt_of_lt hpos)
  have hlines := hpart.extract (Nat.sub_le file.lastIndex linesBeforeEnd)
    (Nat.le_of_lt (Nat.sub_one_lt_of_lt hpos))
  refine ⟨(whole.lines.extract (whole.lastIndex - linesBeforeEnd)
    (file.lastIndex - linesBeforeEnd + above)).toList, ?_, ?_⟩
  · intro line hline
    rw [extract_eq_map_line (by omega) (by simp only [lastIndex] at hlast ⊢; omega)] at hline
    obtain ⟨index, hindex, rfl⟩ := List.mem_map.1 hline
    rw [List.mem_range'_1] at hindex
    rw [hwhole.index_eq index (by omega)]
    omega
  · have hsplit : (whole.lines.extract (whole.lastIndex - linesBeforeEnd) whole.lastIndex).toList =
        (whole.lines.extract (whole.lastIndex - linesBeforeEnd)
          (file.lastIndex - linesBeforeEnd + above)).toList ++
        (file.lines.extract (file.lastIndex - linesBeforeEnd) file.lastIndex).toList.map
          (Line.down above) := by
      rw [← hlines, ← Array.toList_append, Array.extract_append_extract, hlast,
        Nat.min_eq_left (by omega), Nat.max_eq_right (by omega)]
    rw [endExcerpt_eq hwhole, endExcerpt_eq hfile, hend, hsplit]
    rfl

end Append

/-! ## Items of both texts -/

section Items

variable (registry : Registry) (name a b : String)

/-- The items of the second text are those of the whole from its first line on. -/
theorem itemsOfLine_append :
    piecesOfLine ((ofText name (a ++ "\n" ++ b)).itemAt_advances registry)
        (ofText name (a ++ "\n")).lineCount =
      (((ofText name b).items registry).map
        (List.map (Item.mapLines (Line.down (ofText name (a ++ "\n")).lineCount)))).mapError
          (Diagnostic.mapLines (Line.down (ofText name (a ++ "\n")).lineCount)) := by
  by_cases hb : b = ""
  · subst hb
    rw [items_ofText_empty, String.append_empty, piecesOfLine, if_neg (Nat.lt_irrefl _)]
    rfl
  · exact (partOf_down name a hb).itemsOfLine_last (lowers_down _) registry
      (numbered_ofText name b).pos (lineCount_append name a hb).symm

variable {registry name a}

/-- Behind the items of the first text come those of the lines below it. -/
theorem items_append {items : List Item} (h : (ofText name a).items registry = .ok items) :
    (ofText name (a ++ "\n" ++ b)).items registry =
      (piecesOfLine ((ofText name (a ++ "\n" ++ b)).itemAt_advances registry)
        (ofText name (a ++ "\n")).lineCount).map
          (items.map (Item.mapLines (ofText name (a ++ "\n" ++ b)).ended) ++ ·) := by
  have hpart := partOf_front name a b
  have hempty := lineCount_front name a b
  have hwhole : 0 < (ofText name (a ++ "\n" ++ b)).lineCount := (numbered_ofText _ _).pos
  have hpos : 0 < (ofText name a).lineCount := (numbered_ofText name a).pos
  generalize (ofText name (a ++ "\n")).lineCount = above at hempty ⊢
  generalize ofText name (a ++ "\n" ++ b) = whole at hpart hempty hwhole ⊢
  generalize ofText name a = file at hpart hempty hpos h ⊢
  have hpieces := hpart.transportsPieces_itemAt whole.lowers_ended registry
  have hread : whole.items registry = piecesOfLine (whole.itemAt_advances registry) 0 := by
    rw [piecesOfLine, if_pos hwhole]
    rfl
  have hbelow : piecesOfLine (whole.itemAt_advances registry) file.lineCount =
      piecesOfLine (whole.itemAt_advances registry) above := by
    rcases hempty with rfl | ⟨rfl, hline⟩
    · rfl
    · have hrest : whole.rest ⟨file.lineCount, 0⟩ = [] := hline
      rw [piecesOfLine]
      split
      · exact piecesFrom_lineEnd hrest
      · rw [piecesOfLine, if_neg (by omega)]
  rw [hread, hpart.piecesOfLine_ok hpieces hpos h, Nat.add_zero, hbelow]

end Items

/-! ## Documents of both texts -/

theorem parse_eq_ok_iff {registry : Registry} {file : File} {d : Document} :
    file.parse registry = .ok d ↔
      ∃ items, file.items registry = .ok items ∧ takeDeclarations items = .ok d.declarations := by
  rw [parse]
  cases file.items registry with
  | error fault => simp [Except.bind]
  | ok items =>
      rw [Except.bind, documentOfItems_eq_ok_iff, Document.ofItems, map_eq_ok_iff]
      constructor
      · rintro ⟨ds, hds, rfl⟩
        exact ⟨items, rfl, hds⟩
      · rintro ⟨_, ⟨⟩, hds⟩
        exact ⟨d.declarations, hds, rfl⟩

theorem parse_eq_error_iff {registry : Registry} {file : File} {d : Diagnostic} :
    file.parse registry = .error d ↔
      file.items registry = .error d ∨ ∃ items fault, file.items registry = .ok items ∧
        takeDeclarations items = .error fault ∧ fault.report file.endExcerpt = d := by
  rw [parse]
  cases file.items registry with
  | error fault => simp [Except.bind]
  | ok items =>
      cases hread : takeDeclarations items <;>
        simp [Except.bind, documentOfItems, Document.ofItems, hread, Except.map, Except.mapError]

/-- Declarations on other lines are read in front of anything. -/
theorem takeDeclarations_map_append {items : List Item} {ds : List Declaration}
    (h : takeDeclarations items = .ok ds) (f : Line → Line) (rest : List Item) :
    takeDeclarations (items.map (Item.mapLines f) ++ rest) =
      (takeDeclarations rest).map (ds.map (mapLines f) ++ ·) := by
  have hmoved := takeDeclarations_map f items
  rw [h] at hmoved
  obtain ⟨hgrammatical, hitems⟩ := takeDeclarations_eq_ok_iff.1 hmoved
  rw [← hitems, takeDeclarations_flatMap_append hgrammatical]

section Parse

variable {registry : Registry} {name a : String} {d : Document}
  (hd : (ofText name a).parse registry = .ok d)

include hd

theorem parse_append_ok {b : String} {d' : Document}
    (hd' : (ofText name b).parse registry = .ok d') :
    (ofText name (a ++ "\n" ++ b)).parse registry =
      .ok ⟨d.declarations.map (mapLines (ofText name (a ++ "\n" ++ b)).ended) ++
        d'.declarations.map (mapLines (Line.down (ofText name (a ++ "\n")).lineCount))⟩ := by
  obtain ⟨items, hitems, hds⟩ := parse_eq_ok_iff.1 hd
  obtain ⟨items', hitems', hds'⟩ := parse_eq_ok_iff.1 hd'
  have hwhole := items_append b hitems
  rw [itemsOfLine_append, hitems'] at hwhole
  have hread := takeDeclarations_map_append hds (ofText name (a ++ "\n" ++ b)).ended
    (items'.map (Item.mapLines (Line.down (ofText name (a ++ "\n")).lineCount)))
  rw [takeDeclarations_map, hds'] at hread
  exact parse_eq_ok_iff.2 ⟨_, hwhole, hread⟩

theorem parse_append_error {b : String} {fault : Diagnostic}
    (hfault : (ofText name b).parse registry = .error fault) :
    ∃ lines : List Line,
      (∀ line ∈ lines, line.index < (ofText name (a ++ "\n")).lineCount) ∧
      (ofText name (a ++ "\n" ++ b)).parse registry =
        .error ((fault.mapLines (Line.down (ofText name (a ++ "\n")).lineCount)).below lines) := by
  obtain ⟨items, hitems, hds⟩ := parse_eq_ok_iff.1 hd
  have hwhole := items_append b hitems
  rw [itemsOfLine_append] at hwhole
  rcases parse_eq_error_iff.1 hfault with hitems' | ⟨items', stuck, hitems', hstuck, rfl⟩
  · refine ⟨[], List.forall_mem_nil _, parse_eq_error_iff.2 (.inl ?_)⟩
    rw [hwhole, hitems']
    rfl
  · have hb : b ≠ "" := by
      rintro rfl
      rw [items_ofText_empty] at hitems'
      cases hitems'
      rw [takeDeclarations_nil] at hstuck
      cases hstuck
    obtain ⟨lines, hlines, hend⟩ := endExcerpt_append name a hb
    obtain ⟨above, habove, hreport⟩ := stuck.report_below (lowers_down _)
      (ofText name b).endExcerpt lines
    have hread := takeDeclarations_map_append hds (ofText name (a ++ "\n" ++ b)).ended
      (items'.map (Item.mapLines (Line.down (ofText name (a ++ "\n")).lineCount)))
    rw [takeDeclarations_map, hstuck] at hread
    rw [hitems'] at hwhole
    rw [← hend] at hreport
    exact ⟨above, fun line hline => hlines line (habove hline),
      parse_eq_error_iff.2 (.inr ⟨_, _, hwhole, hread, hreport⟩)⟩

/-- A text that is a document can stand in front of any other: if the other is a document,
too, the whole is one of the declarations of both, those of the first where they were and
those of the second as many lines below as the first text has with its line feed; and if
the other has a fault, the whole has the same that many lines below.  At the end of the
file lines of the first text may lead up to a fault as well. -/
theorem parse_append (b : String) :
    (∀ d', (ofText name b).parse registry = .ok d' → ∃ whole,
      (ofText name (a ++ "\n" ++ b)).parse registry = .ok whole ∧
      whole.declarations =
        d.declarations.map (mapLines (ofText name (a ++ "\n" ++ b)).ended) ++
          d'.declarations.map (mapLines (Line.down (ofText name (a ++ "\n")).lineCount)) ∧
      (Node.detach whole).declarations =
        (Node.detach d).declarations ++ (Node.detach d').declarations) ∧
    ∀ fault, (ofText name b).parse registry = .error fault → ∃ lines : List Line,
      (∀ line ∈ lines, line.index < (ofText name (a ++ "\n")).lineCount) ∧
      (ofText name (a ++ "\n" ++ b)).parse registry =
        .error ((fault.mapLines (Line.down (ofText name (a ++ "\n")).lineCount)).below lines) := by
  refine ⟨fun d' hd' => ⟨_, parse_append_ok hd hd', rfl, ?_⟩,
    fun fault hfault => parse_append_error hd hfault⟩
  show Node.detachAll (d.declarations.map (mapLines _) ++ d'.declarations.map (mapLines _)) = _
  rw [Node.detachAll, List.map_append]
  exact congrArg₂ _ (Shown.detachAll_map _ _) (Shown.detachAll_map _ _)

end Parse

/-- A function on a line that ends in a carriage return, which a line feed behind it
joins. -/
def returnText : String := "fun f() { }\r"

theorem parse_append_return :
    ∃ d d' fault, (ofText "a" returnText).parse .builtin = .ok d ∧
      (ofText "a" "#include <b>").parse .builtin = .ok d' ∧
      (ofText "a" "fun").parse .builtin = .error fault ∧
      (∃ whole, (ofText "a" (returnText ++ "\n" ++ "#include <b>")).parse .builtin = .ok whole ∧
        (Node.detach whole).declarations =
          (Node.detach d).declarations ++ (Node.detach d').declarations) ∧
      ∃ lines, (ofText "a" (returnText ++ "\n" ++ "fun")).parse .builtin =
        .error ((fault.mapLines (Line.down 1)).below lines) := by
  have hcount : (ofText "a" (returnText ++ "\n")).lineCount = 1 := rfl
  have hd : ((ofText "a" returnText).parse .builtin).isOk = true := by decide +kernel
  have hd' : ((ofText "a" "#include <b>").parse .builtin).isOk = true := by decide +kernel
  have hfault : ((ofText "a" "fun").parse .builtin).isOk = false := by decide +kernel
  obtain ⟨d, hd⟩ := exists_ok_of_isOk hd
  obtain ⟨d', hd'⟩ := exists_ok_of_isOk hd'
  obtain ⟨fault, hfault⟩ := exists_error_of_isOk hfault
  obtain ⟨whole, hwhole, -, hdetach⟩ := (parse_append hd "#include <b>").1 d' hd'
  obtain ⟨lines, -, hlines⟩ := (parse_append hd "fun").2 fault hfault
  rw [hcount] at hlines
  exact ⟨d, d', fault, hd, hd', hfault, ⟨whole, hwhole, hdetach⟩, lines, hlines⟩

end File
end Kiln
