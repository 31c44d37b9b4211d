import Kiln.Excerpt.Layout
import Kiln.Proofs.Safety.Accesses
import Kiln.Text.Wide
import Mathlib.Data.List.Range

/-!
# Lines around an excerpt

The lines that are shown around an excerpt are those directly above its first line and directly
below its last one, as many as were asked for or as the file has.  An excerpt that covers no line
is shown around the line of a position, which is left out itself.

It follows that the numbers printed in front of the lines go up, and by one each where the excerpt
covers lines of which each is the next one.  The numbers are taken from the rows that are printed
(`Excerpt.printedRows`), most of which have one; indicators and notes have none.
-/

namespace Kiln

/-! ## Printed rows -/

/-- A row as it is printed: the number in front of the bar, if there is one, and the text behind
it. -/
structure Row where
  number : Option Nat
  text : List Char

/-- The text of a row with what stands in front of it. -/
def Row.print (row : Row) : List Char := gutterRow row.number row.text

/-- The row of a line on which nothing is highlighted. -/
def Row.ofLine (line : Line) : Row := ⟨some line.number, line.chars.toList⟩

theorem plainRows_eq (lines : List Line) :
    plainRows lines = (lines.map Row.ofLine).flatMap Row.print := by
  rw [List.flatMap_map]
  rfl

theorem filterMap_number_ofLine (lines : List Line) :
    (lines.map Row.ofLine).filterMap (·.number) = lines.map (·.number) := by
  rw [List.filterMap_map]
  exact congrFun (List.filterMap_eq_map (f := Line.number)) lines

section Printed

variable [Display]

/-- The row of a line, and the one of its indicators. -/
def Span.printedRows (span : Span) : List Row :=
  ⟨some span.line.number, span.sourceRow⟩ ::
    if span.highlights.isEmpty then [] else [⟨none, span.indicators⟩]

namespace Excerpt

/-- The row of a note, if there is one. -/
def printedNote (e : Excerpt) (note : Option String) : List Row :=
  match e.spans.back?, note with
  | some span, some note => (span.noteRow? note.toList).toList.map (Row.mk none)
  | _, _ => []

/-- The rows of an excerpt. -/
def printedRows (e : Excerpt) (note : Option String) : List Row :=
  e.leading.map Row.ofLine ++ e.spans.toList.flatMap Span.printedRows ++ e.printedNote note ++
    e.trailing.map Row.ofLine

/-- The numbers in front of the rows. -/
def printedNumbers (e : Excerpt) (note : Option String) : List Nat :=
  (e.printedRows note).filterMap (·.number)

end Excerpt

theorem Span.rows_eq_flatMap (span : Span) : span.rows = span.printedRows.flatMap Row.print := by
  rw [rows, printedRows, List.flatMap_cons]
  split
  · rfl
  · rw [List.flatMap_singleton]
    rfl

theorem Span.filterMap_number (span : Span) :
    span.printedRows.filterMap (·.number) = [span.line.number] := by
  rw [printedRows]
  split <;> rfl

namespace Excerpt

variable (e : Excerpt) (note : Option String)

theorem noteRow_eq : e.noteRow note = (e.printedNote note).flatMap Row.print := by
  unfold noteRow printedNote
  cases e.spans.back? with
  | none => rfl
  | some span =>
      cases note with
      | none => rfl
      | some note =>
          dsimp only
          cases span.noteRow? note.toList with
          | none => rfl
          | some row => exact (List.flatMap_singleton ..).symm

theorem filterMap_number_printedNote : (e.printedNote note).filterMap (·.number) = [] := by
  unfold printedNote
  split
  · next span note _ => cases span.noteRow? note.toList <;> rfl
  · rfl

/-- What is printed are the rows one below the other. -/
theorem render_eq_printedRows :
    (e.render note).toList = (e.printedRows note).flatMap Row.print := by
  have hspans : e.spans.toList.flatMap Span.rows =
      (e.spans.toList.flatMap Span.printedRows).flatMap Row.print := by
    rw [List.flatMap_assoc, funext Span.rows_eq_flatMap]
  rw [render, String.toList_ofList, printedRows, plainRows_eq, plainRows_eq, hspans, noteRow_eq,
    List.flatMap_append, List.flatMap_append, List.flatMap_append]

/-- The numbers that are printed are those of the lines that are shown. -/
theorem printedNumbers_eq : e.printedNumbers note = e.lines.map (·.number) := by
  have hspans : (e.spans.toList.flatMap Span.printedRows).filterMap (·.number) =
      (e.spans.toList.map (·.line)).map (·.number) := by
    rw [List.filterMap_flatMap, List.map_map, funext Span.filterMap_number]
    exact List.map_eq_flatMap.symm
  simp only [printedNumbers, printedRows, lines, List.filterMap_append, List.map_append,
    filterMap_number_ofLine, hspans, filterMap_number_printedNote, List.append_nil]

end Excerpt

end Printed

/-! ## Windows -/

namespace Excerpt

/-- The indices of the lines that an excerpt covers. -/
def indices (e : Excerpt) : List Nat := e.spans.toList.map (·.line.index)

variable {file : File} {p : Position} {e : Excerpt}

theorem head?_indices (e : Excerpt) (index : Nat) :
    e.indices.head?.getD index = (e.spans[0]?.map (·.line.index)).getD index := by
  rw [indices, List.head?_map, List.head?_eq_getElem?, Array.getElem?_toList]

theorem getLast?_indices (e : Excerpt) (index : Nat) :
    e.indices.getLast?.getD index = (e.spans.back?.map (·.line.index)).getD index := by
  rw [indices, List.getLast?_map, Array.getLast?_toList]

/-- The first line that is covered, or the line of a position, is a line of the file. -/
theorem OnLines.first_lt (he : e.OnLines file) (hp : file.Holds p) :
    e.indices.head?.getD p.line < file.lineCount := by
  rw [head?_indices]
  cases h : e.spans[0]? with
  | none => exact hp.line_lt
  | some span =>
      exact (Array.getElem?_eq_some_iff.1 (he.getElem?_eq span (Array.mem_of_getElem? h))).1

/-- Indices of which each is the next one go on so directly above the first and directly below the
last of them. -/
theorem isChain_around {indices : List Nat} {first last above : Nat}
    (hchain : indices.IsChain fun i j => j = i + 1) (hfirst : indices.head? = some first)
    (hlast : indices.getLast? = some last) (habove : above ≤ first) (below : Nat) :
    (List.range' (first - above) above ++ (indices ++ List.range' (last + 1) below)).IsChain
      fun i j => j = i + 1 := by
  refine (List.isChain_range' _ _ 1).append
    (hchain.append (List.isChain_range' _ _ 1) fun i hi j hj => ?_) fun i hi j hj => ?_
  · obtain rfl : last = i := Option.some_inj.1 (hlast.symm.trans hi)
    rw [List.head?_range', Option.mem_def] at hj
    split at hj
    · cases hj
    · exact (Option.some_inj.1 hj).symm
  · rw [List.head?_append, hfirst] at hj
    obtain rfl : first = j := Option.some_inj.1 hj
    rw [List.getLast?_range', Option.mem_def] at hi
    split at hi
    · cases hi
    · have heq := Option.some_inj.1 hi
      omega

variable (hfile : file.Numbered) (before after : Nat)

include hfile

/-- The lines above are those directly above the first line. -/
theorem leading_surround {first : Nat} (hfirst : e.indices.head?.getD p.line = first)
    (hle : first ≤ file.lineCount) :
    (file.surround p e before after).leading.map some =
        (List.range' (first - min before first) (min before first)).map (file.lines[·]?) ∧
      (file.surround p e before after).leading.map (·.index) =
        List.range' (first - min before first) (min before first) := by
  have hstart : first - before = first - min before first := by omega
  have hcount : min first file.lineCount - (first - min before first) = min before first := by omega
  have hleading : (file.surround p e before after).leading =
      (file.lines.extract (first - min before first) first).toList := by
    rw [← hstart, ← hfirst, head?_indices]
    rfl
  rw [hleading, map_some_extract, File.map_index_extract hfile, ← File.lineCount, hcount]
  exact ⟨rfl, rfl⟩

/-- The lines below are those directly below the last line. -/
theorem trailing_surround {last : Nat} (hlast : e.indices.getLast?.getD p.line = last) :
    (file.surround p e before after).trailing.map some =
        (List.range' (last + 1) (min after (file.lineCount - 1 - last))).map (file.lines[·]?) ∧
      (file.surround p e before after).trailing.map (·.index) =
        List.range' (last + 1) (min after (file.lineCount - 1 - last)) := by
  have hcount : min (last + 1 + after) file.lineCount - (last + 1) =
      min after (file.lineCount - 1 - last) := by
    omega
  have htrailing : (file.surround p e before after).trailing =
      (file.lines.extract (last + 1) (last + 1 + after)).toList := by
    rw [← hlast, getLast?_indices]
    rfl
  rw [htrailing, map_some_extract, File.map_index_extract hfile, ← File.lineCount, hcount]
  exact ⟨rfl, rfl⟩

end Excerpt

/-- If a word holds the index of the lowest line that is asked for, the lines that are shown around
an excerpt are there, as many as were asked for or as the file has above the first and below the
last line.  The numbers that are printed go up, and by one each if the excerpt covers lines of
which each is the next one. -/
theorem File.surround_window [Display] {name text : String} {p : Position} {e : Excerpt}
    (hp : (ofText name text).Holds p) (he : e.OnLines (ofText name text)) (before after : Nat)
    (hword : e.indices.getLast?.getD p.line + 1 + after ≤ Guarded.maxWord) :
    let file := ofText name text
    let shown := file.surround p e before after
    let first := e.indices.head?.getD p.line
    let last := e.indices.getLast?.getD p.line
    let above := min before first
    let below := min after (file.lineCount - 1 - last)
    Guarded.surround file p e before after = .ok shown ∧
      shown.leading.map some = (List.range' (first - above) above).map (file.lines[·]?) ∧
      shown.trailing.map some = (List.range' (last + 1) below).map (file.lines[·]?) ∧
      shown.file = e.file ∧ shown.spans = e.spans ∧
      ∀ note,
        (shown.render note).toList = (shown.printedRows note).flatMap Row.print ∧
        shown.printedNumbers note =
          (List.range' (first - above) above ++ e.indices ++ List.range' (last + 1) below).map
            (· + 1) ∧
        (shown.printedNumbers note).Pairwise (· < ·) ∧
        (e.indices ≠ [] → e.indices.IsChain (fun i j => j = i + 1) →
          (shown.printedNumbers note).IsChain fun m n => n = m + 1) := by
  intro file shown first last above below
  have hfile : file.Numbered := numbered_ofText name text
  have hle : first ≤ file.lineCount := Nat.le_of_lt (he.first_lt hp)
  obtain ⟨hleading, habove⟩ := Excerpt.leading_surround hfile before after rfl hle
  obtain ⟨htrailing, hbelow⟩ := Excerpt.trailing_surround hfile before after rfl
  have hindices : shown.lines.map (·.index) =
      List.range' (first - above) above ++ e.indices ++ List.range' (last + 1) below := by
    rw [Excerpt.lines, List.map_append, List.map_append, List.map_map, habove, hbelow]
    rfl
  have hnumbers : ∀ note, shown.printedNumbers note =
      (List.range' (first - above) above ++ e.indices ++ List.range' (last + 1) below).map
        (· + 1) := by
    intro note
    rw [Excerpt.printedNumbers_eq, ← hindices, List.map_map]
    rfl
  refine ⟨?_, hleading, htrailing, rfl, rfl, fun note => ⟨?_, hnumbers note, ?_, ?_⟩⟩
  · rw [Excerpt.getLast?_indices] at hword
    refine Guarded.surround_eq ?_ (Guarded.plus_eq hword)
    rw [← Excerpt.head?_indices]
    exact hle
  · exact Excerpt.render_eq_printedRows shown note
  · rw [Excerpt.printedNumbers_eq, List.pairwise_map]
    exact (he.lines_surround hfile p before after).2.imp fun hlt => Nat.succ_lt_succ hlt
  · intro hne hchain
    have hfirst : e.indices.head? = some first :=
      (Option.getD_of_ne_none (mt List.head?_eq_none_iff.1 hne) p.line).symm
    have hlast : e.indices.getLast? = some last :=
      (Option.getD_of_ne_none (mt List.getLast?_eq_none_iff.1 hne) p.line).symm
    rw [hnumbers note, List.isChain_map, List.append_assoc]
    exact (Excerpt.isChain_around hchain hfirst hlast (Nat.min_le_right _ _) below).imp
      fun _ _ heq => congrArg (· + 1) heq

/-- More lines above two highlighted ones were asked for than there are, and one of the two below;
the position is at the end of the file. -/
theorem File.surround_window_middleLines :
    let file := ofText "a" "u\nv\nw\nx\ny"
    let e := Excerpt.ofSpans "a" #[⟨file.line 1, #[⟨0, 1⟩]⟩, .ofLine (file.line 2)]
    let shown := file.surround ⟨4, 1⟩ e 7 1
    file.Holds ⟨4, 1⟩ ∧ e.OnLines file ∧
      Guarded.surround file ⟨4, 1⟩ e 7 1 = .ok shown ∧
      shown.leading.map some = [file.lines[0]?] ∧ shown.trailing.map some = [file.lines[3]?] ∧
      shown.printedNumbers (some "n") = [1, 2, 3, 4] ∧
      (shown.printedNumbers (some "n")).IsChain fun m n => n = m + 1 := by
  intro file e shown
  have hp : file.Holds ⟨4, 1⟩ := ⟨by decide +kernel, by decide +kernel⟩
  have he : e.OnLines file := by decide +kernel
  have hcount : file.lineCount = 5 := by decide +kernel
  have hindices : e.indices = [1, 2] := by decide +kernel
  obtain ⟨hguarded, hleading, htrailing, -, -, hprinted⟩ :=
    surround_window hp he 7 1 (by rw [hindices]; decide)
  obtain ⟨-, hnumbers, -, hchain⟩ := hprinted (some "n")
  simp only [hindices] at hleading htrailing hnumbers hchain
  refine ⟨hp, he, hguarded, hleading, ?_, ?_, hchain (by decide) (by decide)⟩
  · rw [hcount] at htrailing
    exact htrailing
  · rw [hcount] at hnumbers
    exact hnumbers

/-- Around an excerpt that covers no line, the line of the position is left out. -/
example : ((File.ofText "a" "u\nv\nw").surround ⟨1, 0⟩ .detached 1 1).printedNumbers none =
    [1, 3] := by
  decide +kernel

end Kiln
