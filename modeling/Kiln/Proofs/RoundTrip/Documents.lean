import Kiln.Proofs.Grammar.Documents
import Kiln.Proofs.Comparison.Essence
import Kiln.Proofs.RoundTrip.DirectiveLines

/-!
# Round trip

A built document that is written down is read back: parsing its text gives a document
that is the same up to places, and comparing the two finds no divergence.
-/

namespace Kiln

variable {file : File} {index : Nat}

/-! ## Declarations -/

/-- A built declaration is read from the lines it is written with. -/
theorem Declaration.Built.readsItems {d : Declaration} (h : d.Built)
    {after : List (List Char)} (hshows : file.Shows index (d.lines ++ after)) :
    file.ReadsItems .builtin ⟨index, 0⟩ d.items (index + d.lines.length) := by
  cases h with
  | @function name arguments returns statements hname harguments hreturns hstatements =>
      have hbuilt := Declaration.Built.function hname harguments hreturns hstatements
      exact File.readsItems_line hbuilt.isSpelled hshows.chars_line
  | @inclusion quote path hne hpath =>
      apply File.readsItems_inclusion hne
      · intro c hc
        simp [closesPath, (hpath c hc).1, (hpath c hc).2.1]
      · have hline : (file.line index).chars.toList = _ := hshows.chars_line
        have hopener : quote.opener.toString.toList = [quote.opener] := String.toList_singleton _
        have hcloser : quote.closer.toString.toList = [quote.closer] := String.toList_singleton _
        rw [File.rest, File.lineAt, hline, Inclusion.line, File.chars_head]
        simp only [Token.ofText, hopener, hcloser]
        rfl
  | inlineBlock hne htag hbody => exact File.readsItems_inlineBlock hne htag hbody hshows

theorem File.itemsOfLine_declarations {ds : List Declaration} (h : ∀ d ∈ ds, d.Built)
    (hshows : file.Shows index (ds.flatMap Declaration.lines)) :
    ∃ found, found.map Item.detach = (ds.flatMap Declaration.items).map Item.detach ∧
      file.itemsOfLine .builtin index = .ok found := by
  induction ds generalizing index with
  | nil =>
      have hend := Nat.not_lt.2 hshows.lineCount_le
      exact ⟨[], rfl, by rw [itemsOfLine, if_neg hend]⟩
  | cons d ds ih =>
      rw [List.forall_mem_cons] at h
      rw [List.flatMap_cons] at hshows
      obtain ⟨found, hfound, hitems⟩ := h.1.readsItems hshows
      obtain ⟨more, hmore, hbelow⟩ := ih h.2 hshows.append
      have hlt := hshows.lt_lineCount_of_ne_nil d.lines_ne_nil
      refine ⟨found ++ more, ?_, ?_⟩
      · rw [List.flatMap_cons, List.map_append, List.map_append, hfound, hmore]
      · rw [itemsOfLine, if_pos hlt, hitems, hbelow]
        rfl

/-! ## Documents -/

/-- A built document is read as its items. -/
theorem Document.Built.exists_items {d : Document} (h : d.Built) (name : String) :
    ∃ items, items.map Item.detach = d.items.map Item.detach ∧
      (File.ofText name d.write).items .builtin = .ok items := by
  obtain ⟨declarations⟩ := d
  cases declarations with
  | nil => exact ⟨[], rfl, File.items_ofText_empty .builtin name⟩
  | cons declaration declarations =>
      have hne : declaration.lines ≠ [] := declaration.lines_ne_nil
      have hshows := h.shows (by simp [Document.lines, hne]) name
      have hlt := hshows.lt_lineCount_of_ne_nil hne
      obtain ⟨found, hfound, hitems⟩ := File.itemsOfLine_declarations h hshows
      refine ⟨found, hfound, ?_⟩
      rw [← hitems, File.itemsOfLine, if_pos hlt]
      rfl

/-- A built document is read back from the text it is written with: what is parsed is
the same up to places, and is as expected when it is compared with it. -/
theorem Document.Built.parse_write {d : Document} (h : d.Built) (name : String) :
    ∃ parsed, (File.ofText name d.write).parse .builtin = .ok parsed ∧
      parsed.expect d = .ok () ∧ Node.detach parsed = d := by
  obtain ⟨items, hitems, hread⟩ := h.exists_items name
  obtain ⟨parsed, rfl, hparsed⟩ := restores_document d items hitems
  have hgrammatical : parsed.Grammatical := by
    apply Document.Grammatical.of_detach
    rw [hparsed, h.detach]
    exact h.grammatical
  have hdocument : Document.ofItems parsed.items = .ok parsed :=
    Document.ofItems_eq_ok_iff.2 ⟨hgrammatical, rfl⟩
  refine ⟨parsed, ?_, Document.expect_eq_ok hparsed, hparsed.trans h.detach⟩
  rw [File.parse, hread]
  exact File.documentOfItems_eq_ok_iff.2 hdocument

/-- A document with an inclusion, a function and a block. -/
def mixedDocument : Document :=
  ⟨[Build.inclusion .angle "a.h",
    Build.function "f" [("p", Build.pointer 1 "int")] (some [Build.pointer 0 "int"])
      [Build.returning
        [Build.binary (Build.operand "p") .plus
          (Build.binary (Build.number "0x1F") .times (.leaf (Build.string "a b")))] true],
    Build.inlineBlock "c" (some "int x;\n\n#end-inline d")]⟩

theorem built_mixedDocument : mixedDocument.Built := by
  have hf : IsLexeme .identifier "f" := ⟨rfl, by decide⟩
  have hp : IsLexeme .identifier "p" := ⟨rfl, by decide⟩
  have hint : IsLexeme .identifier "int" := ⟨rfl, by decide⟩
  have hhex : IsLexeme (.integer .hexadecimal) "0x1F" := ⟨rfl, by decide⟩
  have hstring : IsLexeme .string ("\"" ++ "a b" ++ "\"") := ⟨rfl, by decide⟩
  have hproduct : (Build.binary (Build.number "0x1F") .times
      (.leaf (Build.string "a b"))).Built :=
    .binary (.number hhex) (.string hstring) rfl (fun _ h => by cases h) fun _ h => by cases h
  have hsum : (Build.binary (Build.operand "p") .plus (Build.binary (Build.number "0x1F") .times
      (.leaf (Build.string "a b")))).Built := by
    refine .binary (.operand hp) hproduct rfl (fun _ h => by cases h) ?_
    intro precedence h
    cases h
    decide
  have hfits : BodyFits "c" "int x;\n\n#end-inline d" := ⟨by decide, by decide⟩
  have hpath : ∀ c ∈ "a.h".toList, c ≠ '>' ∧ c ≠ '"' ∧ c ≠ '\n' ∧ c ≠ '\r' := by
    have hall : ("a.h".toList.all fun c => c != '>' && (c != '"' && (c != '\n' && c != '\r'))) =
        true := by decide
    intro c hc
    simpa using List.all_eq_true.1 hall c hc
  intro declaration hmem
  rw [mixedDocument, List.mem_cons, List.mem_cons, List.mem_singleton] at hmem
  rcases hmem with rfl | rfl | rfl
  · exact .inclusion .angle (by decide) hpath
  · refine .function hf ?_ ?_ ?_
    · exact List.forall_mem_singleton.2 ⟨hp, .pointer 1 hint⟩
    · rintro types htypes
      cases htypes
      exact List.forall_mem_singleton.2 (.pointer 0 hint)
    · exact List.forall_mem_singleton.2 (.returning (List.forall_mem_singleton.2 hsum) true)
  · refine .inlineBlock (by decide) (List.all_eq_true.1 (by decide)) ?_
    intro text htext
    cases htext
    exact hfits

theorem parse_write_mixedDocument :
    mixedDocument.Built ∧ ∃ parsed,
      (File.ofText "mixed" mixedDocument.write).parse .builtin = .ok parsed ∧
        parsed.expect mixedDocument = .ok () ∧ Node.detach parsed = mixedDocument :=
  ⟨built_mixedDocument, built_mixedDocument.parse_write "mixed"⟩

end Kiln
