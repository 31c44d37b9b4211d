import Kiln.Proofs.RoundTrip.Built
import Kiln.Source.File

/-!
# Lines of built documents

A text of lines that end in line feeds is cut into these lines.  The lines that a
built document is written with are such lines.
-/

namespace Kiln

/-! ## Cutting a text at its line ends -/

@[simp] theorem oneLine_nil : OneLine [] := by
  intro c hc
  cases hc

theorem oneLine_cons {c : Char} {cs : List Char} :
    OneLine (c :: cs) ↔ (c ≠ '\n' ∧ c ≠ '\r') ∧ OneLine cs :=
  List.forall_mem_cons

theorem oneLine_append {cs ds : List Char} : OneLine (cs ++ ds) ↔ OneLine cs ∧ OneLine ds :=
  List.forall_mem_append

theorem splitLinesAfter_cons {c : Char} (hfeed : c ≠ '\n') (hreturn : c ≠ '\r') (index : Nat)
    (run : Array Char) (cs : List Char) :
    splitLinesAfter index run (c :: cs) = splitLinesAfter index (run.push c) cs := by
  rw [splitLinesAfter.eq_def]
  split
  · next heq => cases heq
  · next heq => exact absurd (List.cons.inj heq).1 hfeed
  · next heq => exact absurd (List.cons.inj heq).1 hreturn
  · next heq => exact absurd (List.cons.inj heq).1 hreturn
  · next heq =>
      obtain ⟨rfl, rfl⟩ := List.cons.inj heq
      rfl

/-- A carriage return ends a line by itself unless a line feed follows. -/
theorem splitLinesAfter_return {cs : List Char} (h : cs.head? ≠ some '\n') (index : Nat)
    (run : Array Char) :
    splitLinesAfter index run ('\r' :: cs) =
      { index, chars := run, ending := .cr } :: splitLinesAfter (index + 1) #[] cs := by
  rw [splitLinesAfter]
  rintro cs' rfl
  exact h rfl

theorem splitLinesAfter_append {cs : List Char} (h : OneLine cs) (index : Nat)
    (run : Array Char) (rest : List Char) :
    splitLinesAfter index run (cs ++ rest) =
      splitLinesAfter index (run ++ cs.toArray) rest := by
  induction cs generalizing run with
  | nil => simp
  | cons c cs ih =>
      obtain ⟨⟨hfeed, hreturn⟩, hcs⟩ := oneLine_cons.1 h
      rw [List.cons_append, splitLinesAfter_cons hfeed hreturn, ih hcs]
      congr 1
      simp

/-- The code points of lines. -/
def charsOf (lines : List Line) : List (List Char) := lines.map fun line => line.chars.toList

theorem charsOf_splitLinesAfter {lines : List (List Char)} (h : ∀ line ∈ lines, OneLine line)
    {index : Nat} (hindex : 0 < index) :
    charsOf (splitLinesAfter index #[] (lines.flatMap fun line => line ++ ['\n'])) = lines := by
  induction lines generalizing index with
  | nil => simp [splitLinesAfter, charsOf, hindex]
  | cons line lines ih =>
      rw [List.forall_mem_cons] at h
      rw [List.flatMap_cons, List.append_assoc, splitLinesAfter_append h.1]
      have hmore := ih h.2 (Nat.succ_pos index)
      rw [charsOf] at hmore
      simp [splitLinesAfter, charsOf, hmore]

/-- Lines that end in line feeds are the lines of their text, unless there is none. -/
theorem charsOf_splitLines {lines : List (List Char)} (hne : lines ≠ [])
    (h : ∀ line ∈ lines, OneLine line) :
    charsOf (splitLines (lines.flatMap fun line => line ++ ['\n'])) = lines := by
  cases lines with
  | nil => exact absurd rfl hne
  | cons line lines =>
      rw [List.forall_mem_cons] at h
      have hmore := charsOf_splitLinesAfter h.2 Nat.one_pos
      rw [charsOf] at hmore
      rw [splitLines, List.flatMap_cons, List.append_assoc, splitLinesAfter_append h.1]
      simp [splitLinesAfter, charsOf, hmore]

/-! ## Lines of a file -/

namespace File

/-- The lines of a file from an index on are of given code points. -/
def Shows (file : File) (index : Nat) (lines : List (List Char)) : Prop :=
  charsOf (file.lines.toList.drop index) = lines

variable {file : File} {index : Nat} {line : List Char} {lines more : List (List Char)}

theorem Shows.lt_lineCount (h : file.Shows index (line :: lines)) : index < file.lineCount := by
  have hlength := congrArg List.length h
  rw [charsOf, List.length_map, List.length_drop, Array.length_toList, List.length_cons] at hlength
  rw [lineCount]
  omega

theorem Shows.lt_lineCount_of_ne_nil (h : file.Shows index (lines ++ more)) (hne : lines ≠ []) :
    index < file.lineCount := by
  obtain ⟨line, lines', rfl⟩ := List.exists_cons_of_ne_nil hne
  exact h.lt_lineCount

theorem Shows.chars_line (h : file.Shows index (line :: lines)) :
    (file.line index).chars.toList = line := by
  have hlt := h.lt_lineCount
  rw [lineCount] at hlt
  rw [Shows, charsOf, List.drop_eq_getElem_cons (by simpa using hlt), List.map_cons] at h
  rw [← (List.cons.inj h).1, File.line, Array.getD_eq_getD_getElem?, Array.getElem?_eq_getElem hlt]
  rfl

theorem Shows.append (h : file.Shows index (lines ++ more)) :
    file.Shows (index + lines.length) more := by
  have hdrop := congrArg (List.drop lines.length) h
  rw [charsOf, ← List.map_drop, List.drop_drop, List.drop_left] at hdrop
  exact hdrop

theorem Shows.tail (h : file.Shows index (line :: lines)) : file.Shows (index + 1) lines :=
  Shows.append (show file.Shows index ([line] ++ lines) from h)

theorem Shows.lineCount_le (h : file.Shows index []) : file.lineCount ≤ index := by
  have hlength := congrArg List.length h
  rw [charsOf, List.length_map, List.length_drop, Array.length_toList, List.length_nil] at hlength
  rw [lineCount]
  omega

end File

/-! ## Lines of built documents -/

theorem of_mem_splitOn {cs line : List Char} {separator c : Char}
    (hline : line ∈ cs.splitOn separator) (hc : c ∈ line) : c ∈ cs ∧ c ≠ separator := by
  induction cs generalizing line with
  | nil =>
      rw [List.splitOn_nil, List.mem_singleton] at hline
      subst hline
      cases hc
  | cons d cs ih =>
      rw [List.splitOn_cons_eq_if_modifyHead] at hline
      split at hline
      · rcases List.mem_cons.1 hline with rfl | hline
        · cases hc
        · exact ⟨List.mem_cons_of_mem _ (ih hline hc).1, (ih hline hc).2⟩
      · next hne =>
          cases hlines : cs.splitOn separator with
          | nil => exact absurd hlines (List.splitOn_ne_nil _ _)
          | cons first lines =>
              rw [hlines, List.modifyHead_cons] at hline
              rw [hlines] at ih
              rcases List.mem_cons.1 hline with rfl | hline
              · rcases List.mem_cons.1 hc with rfl | hc
                · exact ⟨List.mem_cons_self, by simpa using hne⟩
                · have hmem := ih List.mem_cons_self hc
                  exact ⟨List.mem_cons_of_mem _ hmem.1, hmem.2⟩
              · have hmem := ih (List.mem_cons_of_mem _ hline) hc
                exact ⟨List.mem_cons_of_mem _ hmem.1, hmem.2⟩

theorem oneLine_spaced {tokens : List Token} (h : ∀ t ∈ tokens, t.IsSpelled) :
    OneLine (spaced tokens) := by
  induction tokens with
  | nil => exact oneLine_nil
  | cons t tokens ih =>
      rw [List.forall_mem_cons] at h
      cases tokens with
      | nil =>
          rw [spaced, List.map_singleton, List.intercalate_singleton]
          exact h.1.oneLine
      | cons u tokens =>
          have hmore := ih h.2
          rw [spaced, List.map_cons] at hmore
          rw [spaced, List.map_cons, List.map_cons, List.intercalate_cons_cons, oneLine_append,
            oneLine_append]
          exact ⟨⟨h.1.oneLine, by decide⟩, hmore⟩

theorem oneLine_of_isWordPart {cs : List Char} (h : ∀ c ∈ cs, isWordPart c = true) :
    OneLine cs := by
  intro c hc
  constructor
  · rintro rfl
    have hpart := h _ hc
    rw [isWordPart_of_isBlank (by decide)] at hpart
    cases hpart
  · rintro rfl
    have hpart := h _ hc
    rw [isWordPart_of_isBlank (by decide)] at hpart
    cases hpart

theorem Declaration.Built.oneLine {d : Declaration} (h : d.Built) :
    ∀ line ∈ d.lines, OneLine line := by
  cases h with
  | @function name arguments returns statements hname harguments hreturns hstatements =>
      refine List.forall_mem_singleton.2 (oneLine_spaced ?_)
      exact Declaration.Built.isSpelled (.function hname harguments hreturns hstatements)
  | @inclusion quote path hne hpath =>
      refine List.forall_mem_singleton.2 ?_
      have honeLine : OneLine path.toList := fun c hc => ⟨(hpath c hc).2.2.1, (hpath c hc).2.2.2⟩
      simp only [Inclusion.line, oneLine_append, oneLine_cons]
      cases quote with
      | angle => exact ⟨by decide, by decide, by decide, honeLine, by decide⟩
      | double => exact ⟨by decide, by decide, by decide, honeLine, by decide⟩
  | @inlineBlock tag body hne htag hbody =>
      have honeLine := oneLine_of_isWordPart htag
      rw [Build.inlineBlock, Declaration.lines, List.forall_mem_cons, List.forall_mem_append,
        List.forall_mem_singleton]
      refine ⟨?_, ?_, ?_⟩
      · simp only [InlineBlock.openingLine, oneLine_append, oneLine_cons]
        exact ⟨by decide, by decide, honeLine⟩
      · intro line hline c hc
        cases body with
        | none => cases hline
        | some text =>
            obtain ⟨hmem, hfeed⟩ := of_mem_splitOn hline hc
            refine ⟨hfeed, ?_⟩
            rintro rfl
            exact (hbody text rfl).noReturn hmem
      · simp only [InlineBlock.closingLine, oneLine_append, oneLine_cons]
        exact ⟨by decide, by decide, honeLine⟩

theorem Declaration.lines_ne_nil (d : Declaration) : d.lines ≠ [] := by
  cases d with
  | function f => simp [lines]
  | directive d => cases d <;> simp [lines]

/-- The file of a built document shows the lines it is written with, unless there is
none. -/
theorem Document.Built.shows {d : Document} (h : d.Built) (hne : d.lines ≠ []) (name : String) :
    (File.ofText name d.write).Shows 0 d.lines := by
  have honeLine : ∀ line ∈ d.lines, OneLine line :=
    List.forall_mem_flatMap.2 fun declaration hmem => (h declaration hmem).oneLine
  have hsplit := charsOf_splitLines hne honeLine
  simpa [File.Shows, File.ofText, Document.write] using hsplit

end Kiln
