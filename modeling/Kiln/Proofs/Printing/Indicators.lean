import Kiln.Excerpt.Layout
import Kiln.Proofs.Merging.Highlights
import Kiln.Text.Wide
import Mathlib.Order.Bounds.Basic

/-!
# Rows of indicators

The row below a line has an indicator in every display column that a highlight covers, and
spaces in the columns between.  It is drawn from left to right: no highlight starts to the
left of one that was drawn before, so a column that was left out is covered by none, and a
column is never drawn twice.  This holds on any display, whichever characters are wide on it.
-/

namespace Kiln

/-! ## Display columns -/

theorem Line.slice_zero_eq_take (line : Line) (column : Nat) :
    line.slice 0 column = line.chars.toList.take column := by
  simp [slice, Array.toList_extract]

section Columns

variable [Display]

/-- The display column at which a code point of a line is printed: the width of what stands
before it. -/
def Line.displayColumn (line : Line) (column : Nat) : Nat := displayWidth (line.slice 0 column)

theorem lt_advance (column : Nat) (c : Char) : column < advance column c := by
  rw [advance]
  split
  · rw [tabStop]
    omega
  · have hwidth := charWidth_cases c
    omega

theorem le_foldl_advance (column : Nat) (cs : List Char) : column ≤ cs.foldl advance column := by
  induction cs generalizing column with
  | nil => exact Nat.le_refl column
  | cons c cs ih => exact Nat.le_trans (Nat.le_of_lt (lt_advance column c)) (ih _)

theorem columnsFrom_getElem? {cs : List Char} {count : Nat} (h : count ≤ cs.length)
    (column : Nat) :
    (columnsFrom column cs)[count]? = some ((cs.take count).foldl advance column) := by
  induction cs generalizing count column with
  | nil =>
      rw [Nat.le_zero.1 h]
      rfl
  | cons c cs ih =>
      cases count with
      | zero => rfl
      | succ count => exact ih (Nat.le_of_succ_le_succ h) (advance column c)

namespace Line

variable {line : Line}

/-- The columns of a line's text are those at which its code points are printed. -/
theorem getD_columns (line : Line) (column : Nat) :
    (columns line.chars.toList).toArray.getD (min column line.length) 0 =
      line.displayColumn column := by
  have hle : min column line.length ≤ line.chars.toList.length := Nat.min_le_right _ _
  rw [Array.getD_eq_getD_getElem?, List.getElem?_toArray, columns, columnsFrom_getElem? hle,
    Option.getD_some, displayColumn, slice_zero_eq_take, displayWidth]
  have hmin : min (min column line.length) line.chars.toList.length =
      min column line.chars.toList.length := by
    rw [Array.length_toList, length, Nat.min_assoc, Nat.min_self]
  rw [List.take_eq_take_iff.2 hmin]

theorem displayColumn_mono {column other : Nat} (h : column ≤ other) :
    line.displayColumn column ≤ line.displayColumn other := by
  obtain ⟨count, rfl⟩ := Nat.exists_eq_add_of_le h
  rw [displayColumn, displayColumn, slice_zero_eq_take, slice_zero_eq_take, List.take_add,
    displayWidth, displayWidth, List.foldl_append]
  exact le_foldl_advance _ _

/-- Every code point takes a display column. -/
theorem displayColumn_lt {column other : Nat} (h : column < other) (hother : other ≤ line.length) :
    line.displayColumn column < line.displayColumn other := by
  refine Nat.lt_of_lt_of_le ?_ (displayColumn_mono (Nat.succ_le_of_lt h))
  have hcolumn : column < line.chars.toList.length := Nat.lt_of_lt_of_le h hother
  rw [displayColumn, displayColumn, slice_zero_eq_take, slice_zero_eq_take,
    List.take_succ_eq_append_getElem hcolumn, displayWidth, displayWidth, List.foldl_append]
  exact lt_advance _ _

end Line

/-! ## Covered columns -/

namespace Highlight

variable {line : Line} {h : Highlight} {hs : List Highlight} {column : Nat}

/-- Whether a highlight is a range of columns of a line. -/
def IsOn (line : Line) (h : Highlight) : Prop := h.start ≤ h.stop ∧ h.stop ≤ line.length

instance (line : Line) (h : Highlight) : Decidable (h.IsOn line) :=
  inferInstanceAs (Decidable (_ ∧ _))

/-- Where on the display a highlight is over: where what it holds has been printed.  A point
takes one column, and at the end of the line those of the terminator in escaped form, at least
one. -/
def displayStop (line : Line) (h : Highlight) : Nat :=
  if h.start < h.stop then line.displayColumn h.stop
  else if h.start = line.length then
    line.displayColumn h.start + max 1 (displayWidth line.ending.escaped)
  else line.displayColumn h.start + 1

/-- Whether a highlight covers a display column. -/
def Covers (line : Line) (h : Highlight) (column : Nat) : Prop :=
  line.displayColumn h.start ≤ column ∧ column < h.displayStop line

instance (line : Line) (h : Highlight) (column : Nat) : Decidable (h.Covers line column) :=
  inferInstanceAs (Decidable (_ ∧ _))

/-- What stands in a display column below a line with highlights. -/
def mark (line : Line) (hs : List Highlight) (column : Nat) : Char :=
  if ∃ h ∈ hs, h.Covers line column then indicator else ' '

/-- How many display columns there are up to the last one that is covered. -/
def reach (line : Line) (hs : List Highlight) : Nat := (hs.map (displayStop line)).foldr max 0

theorem reach_cons (line : Line) (h : Highlight) (hs : List Highlight) :
    reach line (h :: hs) = max (h.displayStop line) (reach line hs) := rfl

/-- Every highlight covers the column where it starts. -/
theorem IsOn.displayColumn_lt (hon : h.IsOn line) :
    line.displayColumn h.start < h.displayStop line := by
  rw [displayStop]
  split
  · next hlt => exact Line.displayColumn_lt hlt hon.2
  · split <;> omega

/-- A highlight is drawn as wide as it is. -/
theorem IsOn.indicatorWidth_eq (hon : h.IsOn line) :
    Span.indicatorWidth line (columns line.chars.toList).toArray h =
      h.displayStop line - line.displayColumn h.start := by
  rw [Span.indicatorWidth, Line.getD_columns, Line.getD_columns, displayStop, isPoint]
  by_cases hpoint : h.start = h.stop
  · have hend : line.length ≤ h.start ↔ h.start = line.length :=
      ⟨fun hle => Nat.le_antisymm (hpoint ▸ hon.2) hle, fun heq => Nat.le_of_eq heq.symm⟩
    rw [if_pos (beq_iff_eq.2 hpoint), if_neg (Nat.not_lt.2 (Nat.le_of_eq hpoint.symm)),
      Nat.max_comm]
    simp only [hend]
    split <;> omega
  · have hlt : h.start < h.stop := Nat.lt_of_le_of_ne hon.1 hpoint
    rw [if_neg (by simpa using hpoint), if_pos hlt]

theorem reach_le_iff {count : Nat} :
    reach line hs ≤ count ↔ ∀ h ∈ hs, h.displayStop line ≤ count := by
  induction hs with
  | nil => simp [reach]
  | cons h hs ih => rw [reach_cons, Nat.max_le, ih, List.forall_mem_cons]

theorem displayStop_le_reach (hmem : h ∈ hs) : h.displayStop line ≤ reach line hs :=
  reach_le_iff.1 (Nat.le_refl _) h hmem

/-- The last column that is covered stands before the reach. -/
theorem isGreatest_reach (hon : ∀ h ∈ hs, h.IsOn line) (hne : hs ≠ []) :
    IsGreatest {column | ∃ h ∈ hs, h.Covers line column} (reach line hs - 1) := by
  constructor
  · by_contra hnot
    have hle : reach line hs ≤ reach line hs - 1 := by
      refine reach_le_iff.2 fun h hmem => ?_
      by_contra hlt
      have hstart := (hon h hmem).displayColumn_lt
      have hstop : h.displayStop line ≤ reach line hs := displayStop_le_reach hmem
      exact hnot ⟨h, hmem, by omega, by omega⟩
    obtain ⟨h, hmem⟩ := List.exists_mem_of_ne_nil hs hne
    have hstart := (hon h hmem).displayColumn_lt
    have hstop : h.displayStop line ≤ reach line hs := displayStop_le_reach hmem
    omega
  · rintro column ⟨h, hmem, -, hlt⟩
    have hstop : h.displayStop line ≤ reach line hs := displayStop_le_reach hmem
    omega

theorem reach_congr {ks : List Highlight} (hset : ∀ h, h ∈ ks ↔ h ∈ hs) :
    reach line ks = reach line hs :=
  Nat.le_antisymm (reach_le_iff.2 fun h hmem => displayStop_le_reach ((hset h).1 hmem))
    (reach_le_iff.2 fun h hmem => displayStop_le_reach ((hset h).2 hmem))

theorem mark_eq_space (hnone : ∀ h ∈ hs, ¬h.Covers line column) : mark line hs column = ' ' :=
  if_neg fun ⟨h, hmem, hcovers⟩ => hnone h hmem hcovers

theorem mark_eq_indicator (hmem : h ∈ hs) (hcovers : h.Covers line column) :
    mark line hs column = indicator :=
  if_pos ⟨h, hmem, hcovers⟩

theorem mark_cons_of_le (hle : h.displayStop line ≤ column) :
    mark line (h :: hs) column = mark line hs column := by
  have hnot : ¬h.Covers line column := fun hcovers => absurd hcovers.2 (Nat.not_lt.2 hle)
  simp only [mark, List.mem_cons, exists_eq_or_imp, hnot, false_or]

theorem mark_congr {ks : List Highlight} (hset : ∀ h, h ∈ ks ↔ h ∈ hs) :
    mark line ks = mark line hs := by
  funext column
  simp only [mark, hset]

end Highlight

end Columns

/-! ## Drawing -/

namespace Span

variable {line : Line} {hs : List Highlight}

open Highlight

/-- A row from a column up to another. -/
def rowFrom (f : Nat → Char) (start stop : Nat) : List Char :=
  (List.range' start (stop - start)).map f

theorem rowFrom_append (f : Nat → Char) {start middle stop : Nat} (hstart : start ≤ middle)
    (hstop : middle ≤ stop) :
    rowFrom f start middle ++ rowFrom f middle stop = rowFrom f start stop := by
  obtain ⟨m, rfl⟩ := Nat.exists_eq_add_of_le hstart
  obtain ⟨n, rfl⟩ := Nat.exists_eq_add_of_le hstop
  rw [rowFrom, rowFrom, rowFrom, ← List.map_append, Nat.add_sub_cancel_left,
    Nat.add_sub_cancel_left, List.range'_append_1, Nat.add_assoc, Nat.add_sub_cancel_left]

theorem rowFrom_congr {f g : Nat → Char} {start stop : Nat}
    (h : ∀ column, start ≤ column → column < stop → f column = g column) :
    rowFrom f start stop = rowFrom g start stop := by
  apply List.map_congr_left
  intro column hcolumn
  rw [List.mem_range'_1] at hcolumn
  exact h column hcolumn.1 (by omega)

theorem rowFrom_eq_replicate {f : Nat → Char} {c : Char} {start stop : Nat}
    (h : ∀ column, start ≤ column → column < stop → f column = c) :
    rowFrom f start stop = List.replicate (stop - start) c := by
  rw [rowFrom_congr h, rowFrom, List.map_const', List.length_range']

/-- Highlights that are put on a line one after the other are kept in order. -/
theorem marks_foldl_highlight (line : Line) (hs : List Highlight) :
    (hs.foldl highlight (.ofLine line)).line = line ∧
      (hs.foldl highlight (.ofLine line)).marks = sort hs := by
  have hempty : Highlight.InOrder (ofLine line).marks := List.Pairwise.nil
  have hall := marks_highlightAll hempty hs.toArray
  rw [highlightAll, List.foldl_toArray] at hall
  exact hall

section

variable [Display]

/-- From where the row has been drawn to, what is drawn is the marks of the columns that are
left. -/
theorem indicatorsFrom_eq (horder : InOrder hs) (hon : ∀ h ∈ hs, h.IsOn line) (written : Nat) :
    indicatorsFrom line (columns line.chars.toList).toArray written hs =
      rowFrom (mark line hs) written (max written (reach line hs)) := by
  induction hs generalizing written with
  | nil => simp [indicatorsFrom, reach, rowFrom]
  | cons h hs ih =>
      obtain ⟨hhead, htail⟩ := List.forall_mem_cons.1 hon
      have hlt := hhead.displayColumn_lt
      rw [indicatorsFrom, hhead.indicatorWidth_eq, Line.getD_columns,
        Nat.add_sub_of_le (Nat.le_of_lt hlt), ih (List.pairwise_cons.1 horder).2 htail]
      have hspaces : rowFrom (mark line (h :: hs)) written
          (max written (line.displayColumn h.start)) =
            List.replicate (line.displayColumn h.start - written) ' ' := by
        rw [rowFrom_eq_replicate (c := ' ')]
        · congr 1
          omega
        · intro column hwritten hcolumn
          -- all that is left starts to the right
          refine mark_eq_space fun k hk hcovers => ?_
          have hstart : line.displayColumn h.start ≤ line.displayColumn k.start :=
            Line.displayColumn_mono (start_le_of_mem horder k hk)
          have hle := hcovers.1
          omega
      have hmarks : rowFrom (mark line (h :: hs)) (max written (line.displayColumn h.start))
          (max written (h.displayStop line)) = List.replicate
            (h.displayStop line - line.displayColumn h.start -
              (written - line.displayColumn h.start)) indicator := by
        rw [rowFrom_eq_replicate (c := indicator)]
        · congr 1
          omega
        · intro column hwritten hcolumn
          exact mark_eq_indicator List.mem_cons_self ⟨by omega, by omega⟩
      have hrest : rowFrom (mark line (h :: hs)) (max written (h.displayStop line))
          (max (max written (h.displayStop line)) (reach line hs)) =
            rowFrom (mark line hs) (max written (h.displayStop line))
              (max (max written (h.displayStop line)) (reach line hs)) :=
        rowFrom_congr fun column hwritten _ => mark_cons_of_le (by omega)
      rw [← hspaces, ← hmarks, ← hrest, List.append_assoc, rowFrom_append _ (by omega) (by omega),
        rowFrom_append _ (by omega) (by omega), reach_cons, Nat.max_assoc]

theorem indicators_highlights (hon : ∀ h ∈ hs, h.IsOn line) :
    (hs.foldl highlight (.ofLine line)).indicators =
      (List.range (reach line hs)).map (mark line hs) := by
  obtain ⟨hline, hmarks⟩ := marks_foldl_highlight line hs
  have hset : ∀ h, h ∈ sort hs ↔ h ∈ hs := fun h => (sort_perm hs).mem_iff
  rw [indicators, hline, ← marks, hmarks,
    indicatorsFrom_eq (inOrder_sort hs) fun h hmem => hon h ((hset h).1 hmem), mark_congr hset,
    reach_congr hset, Nat.zero_max, rowFrom, Nat.sub_zero, List.range_eq_range']

/-- The row below a line on which highlights are put one after the other, in any order: an
indicator in every column of the display that is covered, a space in the others, up to the last
column that is covered.  So it is settled by which highlights there are, and every highlight has
an indicator. -/
theorem indicators_exact (line : Line) {hs : List Highlight} (hon : ∀ h ∈ hs, h.IsOn line) :
    let row := (hs.foldl highlight (.ofLine line)).indicators
    (row = (List.range row.length).map fun column =>
        if ∃ h ∈ hs, h.Covers line column then '^' else ' ') ∧
      (row = [] ↔ hs = []) ∧
      (hs ≠ [] → IsGreatest {column | ∃ h ∈ hs, h.Covers line column} (row.length - 1)) ∧
      (∀ ks : List Highlight, (∀ h, h ∈ ks ↔ h ∈ hs) →
        (ks.foldl highlight (.ofLine line)).indicators = row) ∧
      ∀ h ∈ hs, ∃ column, h.Covers line column ∧ row[column]? = some '^' := by
  intro row
  have hrow : row = _ := indicators_highlights hon
  have hlength : row.length = reach line hs := by
    rw [hrow, List.length_map, List.length_range]
  refine ⟨?_, ?_, ?_, ?_, ?_⟩
  · rw [hlength]
    exact hrow
  · rw [← List.length_eq_zero_iff, hlength]
    constructor
    · intro hzero
      by_contra hne
      obtain ⟨h, hmem⟩ := List.exists_mem_of_ne_nil hs hne
      have hstart := (hon h hmem).displayColumn_lt
      have hstop : h.displayStop line ≤ reach line hs := displayStop_le_reach hmem
      omega
    · rintro rfl
      rfl
  · intro hne
    rw [hlength]
    exact isGreatest_reach hon hne
  · intro ks hset
    rw [hrow, indicators_highlights fun h hmem => hon h ((hset h).1 hmem), reach_congr hset,
      mark_congr hset]
  · intro h hmem
    have hstart := (hon h hmem).displayColumn_lt
    have hcovers : h.Covers line (line.displayColumn h.start) := ⟨Nat.le_refl _, hstart⟩
    have hlt := Nat.lt_of_lt_of_le hstart (displayStop_le_reach hmem)
    refine ⟨_, hcovers, ?_⟩
    rw [hrow, List.getElem?_map, List.getElem?_range hlt, Option.map_some,
      mark_eq_indicator hmem hcovers]
    rfl

end

/-- A tab, a wide character and a letter on a line with a terminator of two code points. -/
def tabbedLine : Line := { index := 0, chars := #['\t', '中', 'b'], ending := .crlf }

/-- The end of the line, the tab, the place before the wide character, and the character. -/
def tabbedHighlights : List Highlight := [⟨3, 3⟩, ⟨0, 1⟩, ⟨1, 1⟩, ⟨1, 2⟩]

theorem indicators_exact_tabbed :
    (∀ h ∈ tabbedHighlights, h.IsOn tabbedLine) ∧
      (tabbedHighlights.foldl highlight (.ofLine tabbedLine)).indicators =
        "^^^^^^^^^^ ^^^^".toList ∧
      ((tabbedHighlights.reverse ++ tabbedHighlights).foldl highlight
        (.ofLine tabbedLine)).indicators = "^^^^^^^^^^ ^^^^".toList := by
  have hon : ∀ h ∈ tabbedHighlights, h.IsOn tabbedLine := by decide
  have hrow : (tabbedHighlights.foldl highlight (.ofLine tabbedLine)).indicators =
      "^^^^^^^^^^ ^^^^".toList := by decide +kernel
  refine ⟨hon, hrow, ?_⟩
  rw [← hrow]
  exact (indicators_exact tabbedLine hon).2.2.2.1 _ (by simp)

end Span
end Kiln
