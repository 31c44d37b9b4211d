import Kiln.Proofs.Lexing.LongestMatch
import Kiln.Proofs.Lexing.Spelling
import Kiln.Proofs.Printing.Indicators

/-!
# Indicators and the row above them

The row of a line and the row of its indicators are printed below each other, each behind its
gutter.  An indicator is placed by the display column of its character on a line that begins at
the left edge.  As the gutters are seven columns wide and tab stops are counted from the left
edge of the display, the first indicator of a highlight stands under the first character of the
highlight exactly if no tab comes before this and the number of the line fits the gutter.
Elsewhere it is at best an indicator further on, or one of another highlight, that stands there.

All this holds on any display on which no character of ASCII is wide.
-/

namespace Kiln

/-! ## Columns behind a gutter -/

/-- What a row begins with: a line number or blanks in its place, and a bar. -/
def gutter (number : Option Nat) : List Char :=
  let digits := (number.map fun n => Nat.toDigits 10 n).getD []
  List.replicate (gutterWidth - digits.length) ' ' ++ digits ++ [' ', '|', ' ']

theorem gutterRow_eq (number : Option Nat) (text : List Char) :
    gutterRow number text = gutter number ++ text ++ ['\n'] := rfl

theorem mem_gutter {c : Char} {number : Option Nat} (hc : c ∈ gutter number) :
    c = ' ' ∨ c = '|' ∨ c.isDigit = true := by
  rw [gutter, List.mem_append, List.mem_append] at hc
  rcases hc with (hc | hc) | hc
  · exact Or.inl (List.mem_replicate.1 hc).2
  · cases number with
    | none => cases hc
    | some n => exact Or.inr (Or.inr (Nat.isDigit_of_mem_toDigits (by decide) (by decide) hc))
  · have hbar : c = ' ' ∨ c = '|' := by simpa [or_comm] using hc
    exact hbar.imp_right Or.inl

theorem lineFeed_notMem_gutter (number : Option Nat) : '\n' ∉ gutter number := fun hmem =>
  absurd (mem_gutter hmem) (by decide)

theorem length_gutter_eq_iff (n : Nat) :
    (gutter (some n)).length = (gutter none).length ↔ n < 10 ^ gutterWidth := by
  rw [← Nat.length_toDigits_le_iff (by decide) (by decide)]
  simp only [gutter, Option.map_some, Option.getD_some, List.length_append, List.length_replicate,
    Option.map_none, Option.getD_none, List.length_nil]
  omega

section Columns

variable [Display] {cs row : List Char} {c : Char}

/-- A row of characters that take one column each. -/
def IsNarrow (row : List Char) : Prop := ∀ c ∈ row, ∀ column, advance column c = column + 1

theorem IsNarrow.foldl_advance (h : IsNarrow row) (column : Nat) :
    row.foldl advance column = column + row.length := by
  induction row generalizing column with
  | nil => rfl
  | cons c row ih =>
      obtain ⟨hc, hrow⟩ := List.forall_mem_cons.1 h
      rw [List.foldl_cons, hc, ih hrow, List.length_cons]
      omega

theorem IsNarrow.displayWidth (h : IsNarrow row) : displayWidth row = row.length := by
  rw [Kiln.displayWidth, h.foldl_advance, Nat.zero_add]

theorem IsNarrow.append (h : IsNarrow row) (hcs : IsNarrow cs) : IsNarrow (row ++ cs) :=
  List.forall_mem_append.2 ⟨h, hcs⟩

theorem IsNarrow.take (h : IsNarrow row) (count : Nat) : IsNarrow (row.take count) :=
  fun c hc => h c (List.mem_of_mem_take hc)

/-- Without a tab a text is as wide behind a gutter as at the left edge. -/
theorem foldl_advance_add (h : '\t' ∉ cs) (width column : Nat) :
    cs.foldl advance (width + column) = width + cs.foldl advance column := by
  induction cs generalizing column with
  | nil => rfl
  | cons c cs ih =>
      rw [List.mem_cons, not_or] at h
      have hstep : advance (width + column) c = width + advance column c := by
        rw [advance, advance, if_neg (Ne.symm h.1), if_neg (Ne.symm h.1), Nat.add_assoc]
      rw [List.foldl_cons, List.foldl_cons, hstep, ih h.2]

theorem advance_mod {a b : Nat} (c : Char) (h : c = '\t' ∨ a % tabStop = b % tabStop) :
    advance a c % tabStop = advance b c % tabStop := by
  rw [advance, advance]
  by_cases htab : c = '\t'
  · rw [if_pos htab, if_pos htab, Nat.mul_mod_left, Nat.mul_mod_left]
  · rw [if_neg htab, if_neg htab]
    have hmod := h.resolve_left htab
    rw [Nat.add_mod, hmod, ← Nat.add_mod]

/-- Behind a tab the distance from the last tab stop does not depend on where a text begins. -/
theorem foldl_advance_mod {a b : Nat} (h : '\t' ∈ cs ∨ a % tabStop = b % tabStop) :
    cs.foldl advance a % tabStop = cs.foldl advance b % tabStop := by
  induction cs generalizing a b with
  | nil => exact h.resolve_left List.not_mem_nil
  | cons c cs ih =>
      rw [List.foldl_cons, List.foldl_cons]
      apply ih
      rcases h with h | h
      · rcases List.mem_cons.1 h with htab | hmem
        · exact Or.inr (advance_mod c (Or.inl htab.symm))
        · exact Or.inl hmem
      · exact Or.inr (advance_mod c (Or.inr h))

variable [Display.NarrowAscii]

theorem advance_of_ascii (hcode : c.val < 0x80) (htab : c ≠ '\t') (column : Nat) :
    advance column c = column + 1 := by
  rw [advance, if_neg htab, charWidth, if_neg (Display.NarrowAscii.width_ne_two c hcode)]

/-- Digits, blanks and bars take one column each. -/
theorem isNarrow_gutter (number : Option Nat) : IsNarrow (gutter number) := by
  intro c hc
  rcases mem_gutter hc with rfl | rfl | hdigit
  · exact advance_of_ascii (by decide) (by decide)
  · exact advance_of_ascii (by decide) (by decide)
  · simp only [Char.isDigit, Bool.and_eq_true, decide_eq_true_eq] at hdigit
    have hcode : c.val < 0x80 := UInt32.lt_of_le_of_lt hdigit.2 (by decide)
    refine advance_of_ascii hcode ?_
    rintro rfl
    exact absurd hdigit.1 (by decide)

/-- A code point of a line is printed as far behind the gutter as it is on the line if the number
of the line fits the gutter and no tab comes before. -/
theorem Line.displayWidth_gutter_slice_eq_iff (line : Line) (column : Nat) :
    displayWidth (gutter (some line.number) ++ line.slice 0 column) =
        (gutter none).length + line.displayColumn column ↔
      line.number < 10 ^ gutterWidth ∧ '\t' ∉ line.slice 0 column := by
  have hgutter : displayWidth (gutter (some line.number) ++ line.slice 0 column) =
      (line.slice 0 column).foldl advance (gutter (some line.number)).length := by
    rw [displayWidth, List.foldl_append, (isNarrow_gutter _).foldl_advance, Nat.zero_add]
  rw [hgutter, displayColumn, displayWidth]
  by_cases htab : '\t' ∈ line.slice 0 column
  · -- both columns are as far from a tab stop, and the gutter is no multiple of tab stops
    have hmod := foldl_advance_mod (a := (gutter (some line.number)).length) (b := 0)
      (Or.inl htab)
    have hlength : (gutter none).length = 7 := rfl
    rw [hlength]
    simp only [tabStop] at hmod
    constructor
    · intro heq
      omega
    · rintro ⟨-, hnot⟩
      exact absurd htab hnot
  · have hadd := foldl_advance_add htab (gutter (some line.number)).length 0
    rw [Nat.add_zero] at hadd
    rw [hadd, Nat.add_right_cancel_iff, length_gutter_eq_iff]
    exact (and_iff_left htab).symm

end Columns

/-! ## Indicators behind a gutter -/

section Indicators

variable [Display]

/-- An indicator is printed in a display column of a row. -/
def HasIndicator (row : List Char) (column : Nat) : Prop :=
  ∃ i < row.length, row[i]? = some indicator ∧ displayWidth (row.take i) = column

instance (row : List Char) (column : Nat) : Decidable (HasIndicator row column) :=
  inferInstanceAs (Decidable (∃ i, i < row.length ∧ _))

theorem IsNarrow.hasIndicator_iff {row : List Char} (h : IsNarrow row) (column : Nat) :
    HasIndicator row column ↔ row[column]? = some indicator := by
  constructor
  · rintro ⟨i, hi, hindicator, hwidth⟩
    rw [(h.take i).displayWidth, List.length_take_of_le (Nat.le_of_lt hi)] at hwidth
    exact hwidth ▸ hindicator
  · intro hindicator
    have hlt := (List.getElem?_eq_some_iff.1 hindicator).1
    refine ⟨column, hlt, hindicator, ?_⟩
    rw [(h.take column).displayWidth, List.length_take_of_le (Nat.le_of_lt hlt)]

namespace Span

open Highlight

variable {line : Line} {hs : List Highlight}

theorem displayColumn_eq (span : Span) (column : Nat) :
    span.displayColumn column = span.line.displayColumn column := by
  rw [displayColumn, ← Line.getD_columns]
  simp [Array.getD_eq_getD_getElem?]

variable [Display.NarrowAscii]

theorem isNarrow_indicators (hon : ∀ h ∈ hs, h.IsOn line) :
    IsNarrow (hs.foldl highlight (.ofLine line)).indicators := by
  rw [indicators_highlights hon]
  refine List.forall_mem_map.2 fun column _ => ?_
  rw [mark]
  split <;> exact advance_of_ascii (by decide) (by decide)

/-- Behind the gutter there is an indicator in every column that a highlight covers and in no
other. -/
theorem hasIndicator_iff (hon : ∀ h ∈ hs, h.IsOn line) (column : Nat) :
    HasIndicator (gutter none ++ (hs.foldl highlight (.ofLine line)).indicators) column ↔
      ∃ h ∈ hs, ∃ covered, h.Covers line covered ∧ column = (gutter none).length + covered := by
  rw [((isNarrow_gutter none).append (isNarrow_indicators hon)).hasIndicator_iff,
    indicators_highlights hon]
  constructor
  · intro hindicator
    rcases Nat.lt_or_ge column (gutter none).length with hlt | hge
    · rw [List.getElem?_append_left hlt] at hindicator
      have hmem : indicator ∈ gutter none := List.mem_of_getElem? hindicator
      exact absurd hmem (by decide)
    · rw [List.getElem?_append_right hge, List.getElem?_map] at hindicator
      obtain ⟨covered, hcovered, hmark⟩ := Option.map_eq_some_iff.1 hindicator
      obtain ⟨_, hcovered⟩ := List.getElem?_eq_some_iff.1 hcovered
      rw [List.getElem_range] at hcovered
      by_cases hcovers : ∃ h ∈ hs, h.Covers line covered
      · obtain ⟨h, hmem, hcovers⟩ := hcovers
        exact ⟨h, hmem, covered, hcovers, by omega⟩
      · rw [mark, if_neg hcovers] at hmark
        exact absurd hmark (by decide)
  · rintro ⟨h, hmem, covered, hcovers, rfl⟩
    have hlt := Nat.lt_of_lt_of_le hcovers.2 (displayStop_le_reach hmem)
    rw [List.getElem?_append_right (Nat.le_add_right _ _), Nat.add_sub_cancel_left,
      List.getElem?_map, List.getElem?_range hlt, Option.map_some, mark_eq_indicator hmem hcovers]

end Span

end Indicators

/-! ## Rows of an excerpt -/

/-- A text of whole rows. -/
def IsRows (text : List Char) : Prop := text = [] ∨ ∃ front, text = front ++ ['\n']

section Rows

theorem IsRows.append {text more : List Char} (h : IsRows text) (hmore : IsRows more) :
    IsRows (text ++ more) := by
  rcases hmore with rfl | ⟨front, rfl⟩
  · rwa [List.append_nil]
  · exact Or.inr ⟨text ++ front, (List.append_assoc _ _ _).symm⟩

theorem isRows_gutterRow (number : Option Nat) (text : List Char) :
    IsRows (gutterRow number text) := Or.inr ⟨_, gutterRow_eq number text⟩

theorem isRows_flatMap {α : Type} {f : α → List Char} (h : ∀ a, IsRows (f a)) (as : List α) :
    IsRows (as.flatMap f) := by
  induction as with
  | nil => exact Or.inl rfl
  | cons a as ih => exact (h a).append ih

/-- Rows that are printed one below the other are rows of the whole. -/
theorem infix_splitOn {rows : List (List Char)} {before after : List Char} (hbefore : IsRows before)
    (hrows : ∀ row ∈ rows, '\n' ∉ row) :
    rows <:+: (before ++ (rows.flatMap (· ++ ['\n']) ++ after)).splitOn '\n' := by
  have hsplit : (rows.flatMap (· ++ ['\n']) ++ after).splitOn '\n' =
      rows ++ after.splitOn '\n' := by
    clear hbefore
    induction rows with
    | nil => rfl
    | cons row rows ih =>
        obtain ⟨hrow, hmore⟩ := List.forall_mem_cons.1 hrows
        rw [List.flatMap_cons, List.append_assoc, List.append_assoc, List.singleton_append,
          List.splitOn_append_cons_self_of_not_mem hrow, ih hmore, List.cons_append]
  rcases hbefore with rfl | ⟨front, rfl⟩
  · rw [List.nil_append, hsplit]
    exact (List.prefix_append _ _).isInfix
  · rw [List.append_assoc, List.singleton_append, List.splitOn_append_cons_self, hsplit,
      ← List.append_assoc]
    exact List.infix_append _ _ _

/-- A text behind the beginning of a row is on this row up to its first line feed. -/
theorem mem_splitOn_of_rows {before row text after : List Char} (hbefore : IsRows before)
    (hrow : '\n' ∉ row) :
    row ++ text.takeWhile (· != '\n') ∈
      (before ++ (row ++ text ++ ['\n'] ++ after)).splitOn '\n' := by
  obtain ⟨first, more, rfl, htake, hfirst, hmore⟩ := exists_run (· != '\n') text
  have hbehind : ∃ behind, row ++ (first ++ more) ++ ['\n'] ++ after =
      [row ++ first].flatMap (· ++ ['\n']) ++ behind := by
    cases more with
    | nil => exact ⟨after, by simp⟩
    | cons c more =>
        have hc : c = '\n' := by simpa using hmore c rfl
        exact ⟨more ++ ['\n'] ++ after, by simp [hc]⟩
  have hfeed : '\n' ∉ row ++ first := by
    intro hmem
    rcases List.mem_append.1 hmem with hmem | hmem
    · exact hrow hmem
    · simpa using hfirst _ hmem
  obtain ⟨behind, hbehind⟩ := hbehind
  rw [htake, hbehind]
  exact (infix_splitOn hbefore (List.forall_mem_singleton.2 hfeed)).subset List.mem_cons_self

variable [Display]

theorem Span.isRows_rows (span : Span) : IsRows span.rows := by
  refine (isRows_gutterRow _ _).append ?_
  split
  · exact Or.inl rfl
  · exact isRows_gutterRow _ _

/-- The row of a line and the row of its indicators, each behind its gutter. -/
theorem Span.rows_eq {span : Span} (hne : span.highlights.isEmpty = false) :
    span.rows = [gutter (some span.line.number) ++ span.sourceRow,
      gutter none ++ span.indicators].flatMap (· ++ ['\n']) := by
  rw [rows, hne, if_neg Bool.false_ne_true, gutterRow_eq, gutterRow_eq]
  simp

/-- Each line with highlights is printed between whole rows. -/
theorem Excerpt.render_of_mem {e : Excerpt} {span : Span} (hmem : span ∈ e.spans)
    (note : Option String) :
    ∃ before after, IsRows before ∧
      (e.render note).toList = before ++ (span.rows ++ after) := by
  obtain ⟨front, back, hspans⟩ := List.append_of_mem (Array.mem_toList_iff.2 hmem)
  refine ⟨plainRows e.leading ++ front.flatMap Span.rows,
    back.flatMap Span.rows ++ e.noteRow note ++ plainRows e.trailing, ?_, ?_⟩
  · exact (isRows_flatMap (fun _ => isRows_gutterRow _ _) _).append
      (isRows_flatMap Span.isRows_rows _)
  · rw [render, String.toList_ofList, hspans]
    simp

/-- A note is printed between whole rows. -/
theorem Excerpt.render_of_noteRow {e : Excerpt} (note : Option String) :
    ∃ before after, IsRows before ∧
      (e.render note).toList = before ++ (e.noteRow note ++ after) := by
  refine ⟨plainRows e.leading ++ e.spans.toList.flatMap Span.rows, plainRows e.trailing, ?_, ?_⟩
  · exact (isRows_flatMap (fun _ => isRows_gutterRow _ _) _).append
      (isRows_flatMap Span.isRows_rows _)
  · rw [render, String.toList_ofList, List.append_assoc, List.append_assoc, ← List.append_assoc]

end Rows

/-! ## Indicators under their characters -/

namespace Span

open Highlight

variable {line : Line} {hs : List Highlight}

/-- The first highlight of a line is one that starts no later than the others. -/
theorem firstColumn?_highlights {first : Highlight} (hfirst : first ∈ hs)
    (hle : ∀ h ∈ hs, first.start ≤ h.start) :
    (hs.foldl highlight (.ofLine line)).firstColumn? = some first.start := by
  obtain ⟨-, hmarks⟩ := marks_foldl_highlight line hs
  rw [firstColumn?, ← Array.getElem?_toList, ← marks, hmarks]
  have hmem : first ∈ sort hs := (sort_perm hs).mem_iff.2 hfirst
  have horder := inOrder_sort hs
  have hset : ∀ h ∈ sort hs, first.start ≤ h.start := fun h hh =>
    hle h ((sort_perm hs).mem_iff.1 hh)
  cases hsort : sort hs with
  | nil =>
      rw [hsort] at hmem
      cases hmem
  | cons h ks =>
      rw [hsort] at hmem horder hset
      have hstart : h.start ≤ first.start := start_le_of_mem horder first hmem
      exact congrArg some (Nat.le_antisymm hstart (hset h List.mem_cons_self))

theorem highlights_foldl_highlight_ne (hne : hs ≠ []) :
    (hs.foldl highlight (.ofLine line)).highlights.isEmpty = false := by
  rw [← Array.isEmpty_toList, ← marks, (marks_foldl_highlight line hs).2,
    List.isEmpty_eq_false_iff, ne_eq, ← List.length_eq_zero_iff, (sort_perm hs).length_eq,
    List.length_eq_zero_iff]
  exact hne

theorem lineFeed_notMem_sourceRow {span : Span} (h : '\n' ∉ span.line.chars.toList) :
    '\n' ∉ span.sourceRow := by
  rw [sourceRow, List.mem_append, not_or]
  refine ⟨h, ?_⟩
  split
  · cases span.line.ending <;> decide
  · exact List.not_mem_nil

/-- What is printed up to a code point of the line. -/
theorem take_sourceRow {span : Span} {column : Nat} (hle : column ≤ span.line.length)
    (number : Option Nat) :
    (gutter number ++ span.sourceRow).take ((gutter number).length + column) =
      gutter number ++ span.line.slice 0 column := by
  have hlength : column ≤ span.line.chars.toList.length := hle
  rw [List.take_length_add_append, sourceRow, List.take_append_of_le_length hlength,
    Line.slice_zero_eq_take]

section

variable [Display]

theorem lineFeed_notMem_indicators (hon : ∀ h ∈ hs, h.IsOn line) :
    '\n' ∉ (hs.foldl highlight (.ofLine line)).indicators := by
  rw [indicators_highlights hon, List.mem_map]
  rintro ⟨column, -, hmark⟩
  rw [mark] at hmark
  split at hmark <;> exact absurd hmark (by decide)

/-- What comes before a note on its row: the gutter, and blanks up to the column at which a code
point of the line is printed. -/
def margin (line : Line) (column : Nat) : List Char :=
  gutter none ++ List.replicate (line.displayColumn column) ' '

/-- A note has a row of its own. -/
theorem noteRow_of_back {e : Excerpt} {span : Span} {message : String} {column : Nat}
    (hback : e.spans.back? = some span) (hne : message ≠ "")
    (hcolumn : span.firstColumn? = some column) :
    e.noteRow (some message) = margin span.line column ++ message.toList ++ ['\n'] := by
  have hmessage : message.toList.isEmpty = false := by simpa using hne
  unfold Excerpt.noteRow
  simp only [hback, noteRow?, hmessage, if_neg Bool.false_ne_true, hcolumn, Option.getD_some,
    displayColumn_eq, gutterRow_eq, margin, List.append_assoc]

/-- The row of a line and the row of its indicators are printed one below the other. -/
theorem infix_printed {e : Excerpt} {span : Span} (hspan : span ∈ e.spans)
    (hne : span.highlights.isEmpty = false) (hsource : '\n' ∉ span.sourceRow)
    (hcarets : '\n' ∉ span.indicators) (note : Option String) :
    [gutter (some span.line.number) ++ span.sourceRow, gutter none ++ span.indicators] <:+:
      (e.render note).toList.splitOn '\n' := by
  obtain ⟨before, after, hbefore, hprinted⟩ := Excerpt.render_of_mem hspan note
  rw [hprinted, rows_eq hne]
  refine infix_splitOn hbefore (List.forall_mem_cons.2 ⟨?_, List.forall_mem_singleton.2 ?_⟩)
  · exact fun hmem => (List.mem_append.1 hmem).elim (lineFeed_notMem_gutter _) hsource
  · exact fun hmem => (List.mem_append.1 hmem).elim (lineFeed_notMem_gutter _) hcarets

theorem mem_printed_note {e : Excerpt} {span : Span} {message : String} {column : Nat}
    (hback : e.spans.back? = some span) (hne : message ≠ "")
    (hcolumn : span.firstColumn? = some column) :
    margin span.line column ++ message.toList.takeWhile (· != '\n') ∈
      (e.render (some message)).toList.splitOn '\n' := by
  obtain ⟨before, after, hbefore, hprinted⟩ := e.render_of_noteRow (some message)
  rw [hprinted, noteRow_of_back hback hne hcolumn]
  refine mem_splitOn_of_rows hbefore fun hmem => ?_
  rcases List.mem_append.1 hmem with hmem | hmem
  · exact lineFeed_notMem_gutter _ hmem
  · exact absurd (List.mem_replicate.1 hmem).2 (by decide)

variable [Display.NarrowAscii]

theorem displayWidth_margin (line : Line) (column : Nat) :
    displayWidth (margin line column) = (gutter none).length + line.displayColumn column := by
  have hnarrow : IsNarrow (margin line column) := (isNarrow_gutter none).append fun c hc =>
    (List.mem_replicate.1 hc).2 ▸ advance_of_ascii (by decide) (by decide)
  rw [hnarrow.displayWidth, margin, List.length_append, List.length_replicate]

/-- The row of a line and that of its indicators are printed one below the other, with an indicator
seven columns behind each display column that a highlight covers.  The first one of a highlight
stands under the first character of the highlight, and a note under that of the first highlight,
if and only if the number of the line has no more than four digits and no tab comes before the
character. -/
theorem carets_aligned_iff {name text : String} {line : Line}
    (hline : line ∈ (File.ofText name text).lines) {hs : List Highlight}
    (hon : ∀ h ∈ hs, h.IsOn line) (hne : hs ≠ []) {e : Excerpt}
    (hspan : hs.foldl highlight (.ofLine line) ∈ e.spans) (note : Option String) :
    let span := hs.foldl highlight (.ofLine line)
    let source := gutter (some line.number) ++ span.sourceRow
    let carets := gutter none ++ span.indicators
    let printed := (e.render note).toList.splitOn '\n'
    [source, carets] <:+: printed ∧
      (∀ column, HasIndicator carets column ↔
        ∃ h ∈ hs, ∃ covered, h.Covers line covered ∧ column = 7 + covered) ∧
      (∀ h ∈ hs, HasIndicator carets (7 + line.displayColumn h.start) ∧
        (displayWidth (source.take ((gutter (some line.number)).length + h.start)) =
            7 + line.displayColumn h.start ↔
          line.number < 10000 ∧ '\t' ∉ line.slice 0 h.start)) ∧
      ∀ message, note = some message → message ≠ "" → e.spans.back? = some span →
        ∀ first ∈ hs, (∀ h ∈ hs, first.start ≤ h.start) →
          margin line first.start ++ message.toList.takeWhile (· != '\n') ∈ printed ∧
            displayWidth (margin line first.start) = 7 + line.displayColumn first.start := by
  intro span source carets printed
  have hsame : span.line = line := (marks_foldl_highlight line hs).1
  have hfeed : '\n' ∉ span.line.chars.toList := by
    intro hmem
    have honeLine := oneLine_of_mem_splitLinesAfter oneLine_nil line (List.mem_toArray.1 hline)
    exact (honeLine _ (hsame ▸ hmem)).1 rfl
  refine ⟨?_, hasIndicator_iff hon, ?_, ?_⟩
  · have hrows := infix_printed hspan (highlights_foldl_highlight_ne hne)
      (lineFeed_notMem_sourceRow hfeed) (lineFeed_notMem_indicators hon) note
    rwa [hsame] at hrows
  · intro h hmem
    have hcovers : h.Covers line (line.displayColumn h.start) :=
      ⟨Nat.le_refl _, (hon h hmem).displayColumn_lt⟩
    refine ⟨(hasIndicator_iff hon _).2 ⟨h, hmem, _, hcovers, rfl⟩, ?_⟩
    have hle : h.start ≤ span.line.length := hsame ▸ Nat.le_trans (hon h hmem).1 (hon h hmem).2
    rw [take_sourceRow hle (some line.number), hsame]
    exact line.displayWidth_gutter_slice_eq_iff h.start
  · rintro message rfl hmessage hback first hfirst hle
    have hnote := mem_printed_note hback hmessage (firstColumn?_highlights hfirst hle)
    rw [hsame] at hnote
    exact ⟨hnote, displayWidth_margin line first.start⟩

end

/-- A wide character has its indicators under it, and the terminator behind a tab has not. -/
theorem carets_aligned_iff_terminator :
    let line := (File.ofText "a" "f\n中\tb\r\n").line 1
    let hs : List Highlight := [⟨3, 3⟩, ⟨0, 1⟩]
    let span := hs.foldl highlight (.ofLine line)
    let printed := ((Excerpt.ofSpans "a" #[span]).render (some "note")).toList.splitOn '\n'
    line ∈ (File.ofText "a" "f\n中\tb\r\n").lines ∧ (∀ h ∈ hs, h.IsOn line) ∧
      ["   2 | 中\tb\\r\\n".toList, "     | ^^       ^^^^".toList] <:+: printed ∧
      displayWidth ("   2 | 中\tb\\r\\n".toList.take 7) = 7 ∧
      displayWidth ("   2 | 中\tb\\r\\n".toList.take 10) ≠ 16 ∧
      HasIndicator "     | ^^       ^^^^".toList 16 ∧
      "     | note".toList ∈ printed := by
  intro line hs span printed
  have hline : line ∈ (File.ofText "a" "f\n中\tb\r\n").lines := by decide +kernel
  have hon : ∀ h ∈ hs, h.IsOn line := by decide +kernel
  have hspan : span ∈ (Excerpt.ofSpans "a" #[span]).spans := Array.mem_singleton.2 rfl
  have hsource : gutter (some line.number) ++ span.sourceRow =
      "   2 | 中\tb\\r\\n".toList := by decide +kernel
  have hcarets : gutter none ++ span.indicators = "     | ^^       ^^^^".toList := by
    decide +kernel
  obtain ⟨hrows, -, haligned, hnote⟩ :=
    carets_aligned_iff hline hon (by decide) hspan (some "note")
  obtain ⟨-, hstart⟩ := haligned ⟨0, 1⟩ (by decide)
  obtain ⟨hcaret, hend⟩ := haligned ⟨3, 3⟩ (by decide)
  have hcolumn : line.displayColumn 3 = 9 := by decide +kernel
  have hgutter : (gutter (some line.number)).length = 7 := by decide +kernel
  have htab : '\t' ∈ line.slice 0 3 := by decide +kernel
  have hmessage := (hnote "note" rfl (by decide) rfl ⟨0, 1⟩ (by decide) (by decide)).1
  rw [hsource, hcarets] at hrows
  rw [hsource, hgutter] at hstart hend
  rw [hcarets, hcolumn] at hcaret
  rw [hcolumn] at hend
  refine ⟨hline, hon, hrows, ?_, ?_, hcaret, hmessage⟩
  · exact hstart.2 ⟨by decide +kernel, by decide +kernel⟩
  · exact fun heq => (hend.1 heq).2 htab

/-- The character behind a tab has no indicator under it. -/
theorem carets_misaligned_tab :
    let line := (File.ofText "t.kn" "\tx").line 0
    let e := Excerpt.ofSpans "t.kn" #[(ofLine line).highlight ⟨1, 2⟩]
    Highlight.IsOn line ⟨1, 2⟩ ∧
      (e.render none).toList.splitOn '\n' =
        ["   1 | \tx".toList, "     |         ^".toList, []] ∧
      displayWidth ("   1 | \tx".toList.take 8) = 8 ∧
      ¬HasIndicator "     |         ^".toList 8 := by
  decide +kernel

end Span
end Kiln
