import Kiln.Proofs.Printing.Styles
import Kiln.Text.Wide
import Kiln.Token.Lexing

/-!
# Diagnostics on an output

A diagnostic is written in segments and printed as one text.  Without colours the two are the
same, and with colours they are the same up to control sequences.  Printing adds no escape
character to those of the file's name, the lines, the message and the note.
-/

namespace Kiln

/-! ## Texts without escape characters -/

/-- An excerpt that shows no escape character. -/
structure Excerpt.Unescaped (e : Excerpt) : Prop where
  file : ∀ name ∈ e.file, escape ∉ name.toList
  leading : ∀ line ∈ e.leading, escape ∉ line.chars.toList
  spans : ∀ span ∈ e.spans, escape ∉ span.line.chars.toList
  trailing : ∀ line ∈ e.trailing, escape ∉ line.chars.toList

/-- A notice without escape characters. -/
structure Notice.Unescaped (n : Notice) : Prop where
  excerpt : n.excerpt.Unescaped
  message : escape ∉ n.message.toList
  note : ∀ note ∈ n.note, escape ∉ note.toList

theorem escape_not_mem_toDigits (n : Nat) : escape ∉ Nat.toDigits 10 n := by
  intro h
  have hdigit := Nat.isDigit_of_mem_toDigits (by decide) (by decide) h
  cases hdigit

theorem escape_not_mem_toString (n : Nat) : escape ∉ (toString n).toList := by
  rw [Nat.toString_eq_ofList_toDigits, String.toList_ofList]
  exact escape_not_mem_toDigits n

theorem escape_not_mem_replicate {c : Char} (h : c ≠ escape) (count : Nat) :
    escape ∉ List.replicate count c := by
  intro hmem
  exact h (List.eq_of_mem_replicate hmem).symm

theorem escape_not_mem_gutterRow (number : Option Nat) {text : List Char} (h : escape ∉ text) :
    escape ∉ gutterRow number text := by
  have hdigits : escape ∉ (number.map fun n => Nat.toDigits 10 n).getD [] := by
    cases number with
    | none => exact List.not_mem_nil
    | some n => exact escape_not_mem_toDigits n
  have hmark : escape ∉ [' ', '|', ' '] := by decide
  have hbreak : escape ∉ ['\n'] := by decide
  simp only [gutterRow, List.mem_append, not_or]
  exact ⟨⟨⟨⟨escape_not_mem_replicate (by decide) _, hdigits⟩, hmark⟩, h⟩, hbreak⟩

theorem escape_not_mem_plainRows {lines : List Line}
    (h : ∀ line ∈ lines, escape ∉ line.chars.toList) : escape ∉ plainRows lines := by
  intro hmem
  obtain ⟨line, hline, hrow⟩ := List.mem_flatMap.1 hmem
  exact escape_not_mem_gutterRow _ (h line hline) hrow

theorem escape_not_mem_position? {e : Excerpt} (he : e.Unescaped) :
    ∀ position ∈ e.position?, escape ∉ position.toList := by
  intro position hposition
  obtain ⟨name, hname, rfl⟩ := Option.map_eq_some_iff.1 hposition
  have hfile := he.file name hname
  have hcolon : escape ∉ ":".toList := by decide
  split
  · next line column _ =>
      simp only [String.toList_append, List.mem_append, not_or]
      exact ⟨⟨⟨⟨hfile, hcolon⟩, escape_not_mem_toString line⟩, hcolon⟩,
        escape_not_mem_toString column⟩
  · exact hfile

section Printed

variable [Display]

theorem escape_not_mem_indicatorsFrom (line : Line) (columns : Array Nat) (written : Nat)
    (hs : List Highlight) : escape ∉ Span.indicatorsFrom line columns written hs := by
  induction hs generalizing written with
  | nil => exact List.not_mem_nil
  | cons h hs ih =>
      simp only [Span.indicatorsFrom, List.mem_append, not_or]
      exact ⟨⟨escape_not_mem_replicate (by decide) _, escape_not_mem_replicate (by decide) _⟩,
        ih _⟩

theorem escape_not_mem_rows {span : Span} (h : escape ∉ span.line.chars.toList) :
    escape ∉ span.rows := by
  have hsource : escape ∉ span.sourceRow := by
    rw [Span.sourceRow, List.mem_append, not_or]
    refine ⟨h, ?_⟩
    split
    · cases span.line.ending <;> decide
    · exact List.not_mem_nil
  rw [Span.rows, List.mem_append, not_or]
  refine ⟨escape_not_mem_gutterRow _ hsource, ?_⟩
  split
  · exact List.not_mem_nil
  · exact escape_not_mem_gutterRow _ (escape_not_mem_indicatorsFrom _ _ _ _)

theorem escape_not_mem_noteRow (e : Excerpt) {note : Option String}
    (h : ∀ text ∈ note, escape ∉ text.toList) : escape ∉ e.noteRow note := by
  unfold Excerpt.noteRow
  split
  · next span text _ =>
      cases hrow : span.noteRow? text.toList with
      | none => exact List.not_mem_nil
      | some row =>
          apply escape_not_mem_gutterRow
          unfold Span.noteRow? at hrow
          split at hrow
          · cases hrow
          · cases hrow
            rw [List.mem_append, not_or]
            exact ⟨escape_not_mem_replicate (by decide) _, h text rfl⟩
  · exact List.not_mem_nil

theorem escape_not_mem_render {e : Excerpt} (he : e.Unescaped) {note : Option String}
    (h : ∀ text ∈ note, escape ∉ text.toList) : escape ∉ (e.render note).toList := by
  have hspans : escape ∉ e.spans.toList.flatMap Span.rows := by
    intro hmem
    obtain ⟨span, hspan, hrow⟩ := List.mem_flatMap.1 hmem
    exact escape_not_mem_rows (he.spans span (Array.mem_toList_iff.1 hspan)) hrow
  simp only [Excerpt.render, String.toList_ofList, List.mem_append, not_or]
  exact ⟨⟨⟨escape_not_mem_plainRows he.leading, hspans⟩, escape_not_mem_noteRow e h⟩,
    escape_not_mem_plainRows he.trailing⟩

/-- Printing adds no escape character. -/
theorem Notice.Unescaped.text {n : Notice} (h : n.Unescaped) : escape ∉ n.text.toList := by
  have hname : escape ∉ n.severity.name.toList := by
    cases n.severity <;> decide
  have hcolon : escape ∉ ": ".toList := by decide
  have hbreak : escape ∉ "\n".toList := by decide
  have hnote : escape ∉ "  = note: ".toList := by decide
  rw [Notice.text, String.toList_append, List.mem_append, not_or]
  constructor
  · rw [header]
    cases hposition : n.excerpt.position? with
    | none =>
        simp only [String.toList_append, List.mem_append, not_or]
        exact ⟨⟨⟨hname, hcolon⟩, h.message⟩, hbreak⟩
    | some position =>
        simp only [String.toList_append, List.mem_append, not_or]
        exact ⟨⟨⟨⟨⟨escape_not_mem_position? h.excerpt position hposition, hcolon⟩, hname⟩,
          hcolon⟩, h.message⟩, hbreak⟩
  · rw [body]
    split
    · cases hsome : n.note with
      | none => exact List.not_mem_nil
      | some note =>
          simp only [String.toList_append, List.mem_append, not_or]
          exact ⟨⟨hnote, h.note note hsome⟩, hbreak⟩
    · exact escape_not_mem_render h.excerpt h.note

/-- A diagnostic whose notices have no escape character is printed without one. -/
theorem Diagnostic.escape_not_mem_text {d : Diagnostic} (h : ∀ n ∈ d.chain, n.Unescaped) :
    escape ∉ d.text.toList := by
  rw [text]
  generalize d.chain = chain at h
  induction chain with
  | nil => exact List.not_mem_nil
  | cons n chain ih =>
      obtain ⟨hfirst, hrest⟩ := List.forall_mem_cons.1 h
      rw [List.map_cons, String.join_cons, String.toList_append, List.mem_append, not_or]
      exact ⟨hfirst.text, ih hrest⟩

end Printed

/-! ## What is written -/

/-- What is written of segments to an output, which may be a terminal. -/
def Segment.emit (mode : ColorMode) (isTerminal : Bool) (segments : List Segment) : String :=
  renderAll (mode.onOutput isTerminal) segments

open Segment

theorem escape_not_mem_counted (count : Nat) {noun : String} (h : escape ∉ noun.toList) :
    escape ∉ (counted count noun).toList := by
  have hspace : escape ∉ " ".toList := by decide
  have hone : escape ∉ "1 ".toList := by decide
  have hplural : escape ∉ "s".toList := by decide
  rw [counted]
  split
  · simp only [String.toList_append, List.mem_append, not_or]
    exact ⟨hone, h⟩
  · simp only [String.toList_append, List.mem_append, not_or]
    exact ⟨⟨⟨escape_not_mem_toString count, hspace⟩, h⟩, hplural⟩

theorem escape_not_mem_summarySegments (errors warnings : Nat) :
    ∀ s ∈ summarySegments errors warnings, escape ∉ s.text.toList := by
  have hwarning : escape ∉ "warning".toList := by decide
  have hcounted := escape_not_mem_counted warnings hwarning
  have hcolon : escape ∉ ": ".toList := by decide
  have hemitted : escape ∉ " emitted\n".toList := by decide
  rw [summarySegments]
  split
  · split
    · exact fun s hs => absurd hs List.not_mem_nil
    · simp only [List.forall_mem_cons, styled, plain, String.toList_append, List.mem_append,
        not_or]
      exact ⟨hwarning, ⟨⟨hcolon, hcounted⟩, hemitted⟩, fun s hs => absurd hs List.not_mem_nil⟩
  · have hstopped : escape ∉ (if errors = 1 then "previous error"
        else toString errors ++ " previous errors").toList := by
      have hplural : escape ∉ " previous errors".toList := by decide
      split
      · decide
      · rw [String.toList_append, List.mem_append, not_or]
        exact ⟨escape_not_mem_toString errors, hplural⟩
    have hwarned : escape ∉ (if warnings = 0 then ""
        else "; " ++ counted warnings "warning" ++ " emitted").toList := by
      have hsemicolon : escape ∉ "; ".toList := by decide
      have hend : escape ∉ " emitted".toList := by decide
      split
      · exact List.not_mem_nil
      · simp only [String.toList_append, List.mem_append, not_or]
        exact ⟨⟨hsemicolon, hcounted⟩, hend⟩
    have herror : escape ∉ "error".toList := by decide
    have haborting : escape ∉ ": aborting due to ".toList := by decide
    have hbreak : escape ∉ "\n".toList := by decide
    rw [List.forall_mem_cons, List.forall_mem_cons]
    refine ⟨herror, ?_, fun s hs => absurd hs List.not_mem_nil⟩
    simp only [plain, String.toList_append, List.mem_append, not_or]
    exact ⟨⟨⟨haborting, hstopped⟩, hwarned⟩, hbreak⟩

/-- Diagnostics are written without colours as they are printed, one after the other, and with
colours so that erasing the styles leaves this, if none of them is printed with an escape
character; none is whose parts have no such character.  Erasing the styles of the closing row
leaves what is written of it without colours. -/
theorem emit_agrees_with_text [Display] (ds : List Diagnostic) (mode : ColorMode)
    (isTerminal : Bool) :
    (mode.onOutput isTerminal = false →
      emit mode isTerminal (ds.flatMap Diagnostic.segments) =
        String.join (ds.map Diagnostic.text)) ∧
    ((∀ d ∈ ds, escape ∉ d.text.toList) →
      eraseStyles (emit mode isTerminal (ds.flatMap Diagnostic.segments)).toList =
        (String.join (ds.map Diagnostic.text)).toList) ∧
    (∀ d ∈ ds, (∀ n ∈ d.chain, n.Unescaped) → escape ∉ d.text.toList) ∧
    ∀ errors warnings,
      eraseStyles (emit mode isTerminal (summarySegments errors warnings)).toList =
        (emit .never isTerminal (summarySegments errors warnings)).toList := by
  refine ⟨?_, ?_, fun d _ => Diagnostic.escape_not_mem_text, ?_⟩
  · intro hplain
    rw [emit, hplain, Diagnostic.renderAll_flatMap_segments]
  · intro hunescaped
    rw [emit, eraseStyles_renderAll, Diagnostic.renderAll_flatMap_segments]
    refine List.forall_mem_flatMap.2 fun d hd => ?_
    rw [← escape_not_mem_renderAll, Diagnostic.renderAll_segments]
    exact hunescaped d hd
  · intro errors warnings
    exact eraseStyles_renderAll _ (escape_not_mem_summarySegments errors warnings)

/-- A string that is not closed, reported with the place where it starts: the report has no
escape character, and is written as it is printed. -/
theorem emit_agrees_with_text_unterminated :
    let d := LexicalFault.unterminatedString.report (.ofText "a" "x \"y") ⟨0, 2⟩ 2
    escape ∉ d.text.toList ∧
      emit .auto false ([d].flatMap Diagnostic.segments) = String.join ([d].map Diagnostic.text) ∧
      eraseStyles (emit .always false ([d].flatMap Diagnostic.segments)).toList =
        (String.join ([d].map Diagnostic.text)).toList := by
  intro d
  have hparts : ∀ n ∈ d.chain, n.Unescaped := by
    refine List.forall_mem_cons.2 ⟨?_, List.forall_mem_cons.2 ⟨?_, ?_⟩⟩
    · exact ⟨⟨by decide +kernel, by decide +kernel, by decide +kernel, by decide +kernel⟩,
        by decide +kernel, by decide +kernel⟩
    · exact ⟨⟨by decide +kernel, by decide +kernel, by decide +kernel, by decide +kernel⟩,
        by decide +kernel, by decide +kernel⟩
    · exact fun n hn => absurd hn List.not_mem_nil
  have hplain := emit_agrees_with_text [d] .auto false
  have hcolored := emit_agrees_with_text [d] .always false
  have htext : escape ∉ d.text.toList := hplain.2.2.1 d (List.mem_singleton_self d) hparts
  exact ⟨htext, hplain.1 rfl, hcolored.2.1 (List.forall_mem_singleton.2 htext)⟩

end Kiln
