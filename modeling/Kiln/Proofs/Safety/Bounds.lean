import Kiln.Grammar.Fault
import Kiln.Proofs.Comparison.Places
import Kiln.Proofs.Coverage.Blocks
import Kiln.Proofs.Reading.Steps

/-!
# Places inside a file

A place is inside a file if the lines that it shows are lines of this file and the columns that
it highlights are columns of these lines.  Stretches between positions of the file are inside
it, and so is whatever is merged from places inside it.

Beyond what merging needs of them, the lines of an excerpt in range are known to go up from the
first line above to the last line below.
-/

namespace Kiln

/-! ## Highlights and lines -/

/-- A range of columns of a line. -/
structure Highlight.Fits (line : Line) (h : Highlight) : Prop where
  start_le : h.start ≤ h.stop
  stop_le : h.stop ≤ line.length

instance (line : Line) (h : Highlight) : Decidable (h.Fits line) :=
  decidable_of_iff (h.start ≤ h.stop ∧ h.stop ≤ line.length)
    ⟨fun ⟨hstart, hstop⟩ => ⟨hstart, hstop⟩, fun h => ⟨h.start_le, h.stop_le⟩⟩

theorem Highlight.mem_insert {h h' : Highlight} {hs : Array Highlight} :
    h' ∈ h.insert hs ↔ h' = h ∨ h' ∈ hs :=
  Array.mem_insertIdx

/-- A line of a file, with ranges of its columns. -/
structure Span.Fits (file : File) (span : Span) : Prop where
  getElem?_eq : file.lines[span.line.index]? = some span.line
  fits : ∀ h ∈ span.highlights, h.Fits span.line

/-- Whatever the keys are, the place that is found is that of an element with the key, or one
up to the end of the array. -/
theorem Slot.find_spec {α : Type} (keyOf : α → Nat) (xs : Array α) (key : Nat) :
    match find keyOf xs key with
    | .taken index => ∃ x, xs[index]? = some x ∧ keyOf x = key
    | .free index => index ≤ xs.size := by
  unfold find
  dsimp only
  cases h : xs[narrow keyOf xs key 0 xs.size]? with
  | none => exact Nat.zero_le _
  | some found =>
      have hlt := (Array.getElem?_eq_some_iff.1 h).1
      by_cases hequal : keyOf found = key
      · simp only [if_pos hequal]
        exact ⟨found, h, hequal⟩
      · by_cases hless : keyOf found < key
        · simp only [if_neg hequal, if_pos hless]
          exact hlt
        · simp only [if_neg hequal, if_neg hless]
          exact Nat.le_of_lt hlt

theorem File.line_eq_getElem {file : File} {index : Nat} (h : index < file.lines.size) :
    file.line index = file.lines[index] := by
  simp only [line, Array.getD_eq_getD_getElem?, Array.getElem?_eq_getElem h, Option.getD_some]

/-- What stands in an array from an index up to another, as far as the array goes. -/
theorem map_some_extract {α : Type} (as : Array α) (start stop : Nat) :
    (as.extract start stop).toList.map some =
      (List.range' start (min stop as.size - start)).map (as[·]?) := by
  apply List.ext_getElem
  · simp only [List.length_map, Array.length_toList, Array.size_extract, List.length_range']
  · intro i hi hi'
    have hsize : start + i < as.size := by
      simp only [List.length_map, List.length_range'] at hi'
      omega
    simp [hsize]

namespace Span

variable {file : File} {span other : Span} {spans : Array Span}

/-- Highlights of a line go with further ones of the same line. -/
theorem fits_highlightAll {hs : Array Highlight} (hspan : span.Fits file)
    (hhs : ∀ h ∈ hs, h.Fits span.line) : (span.highlightAll hs).Fits file := by
  rw [highlightAll, ← Array.foldl_toList]
  replace hhs : ∀ h ∈ hs.toList, h.Fits span.line := fun h hmem =>
    hhs h (Array.mem_toList_iff.1 hmem)
  generalize hs.toList = hs at hhs
  induction hs generalizing span with
  | nil => exact hspan
  | cons first hs ih =>
      obtain ⟨hfirst, hrest⟩ := List.forall_mem_cons.1 hhs
      refine ih ⟨hspan.getElem?_eq, fun h hmem => ?_⟩ hrest
      rcases Highlight.mem_insert.1 hmem with rfl | hmem
      · exact hfirst
      · exact hspan.fits h hmem

/-- Two lines of a file with one index are the same. -/
theorem Fits.line_eq (hspan : span.Fits file) (hother : other.Fits file)
    (h : span.line.index = other.line.index) : span.line = other.line := by
  have hline := hspan.getElem?_eq
  rw [h, hother.getElem?_eq] at hline
  exact (Option.some.inj hline).symm

theorem fits_place (hspans : ∀ s ∈ spans, s.Fits file) (hspan : span.Fits file) :
    ∀ s ∈ place spans span, s.Fits file := by
  have hfind := Slot.find_spec (·.line.index) spans span.line.index
  rw [place]
  cases h : Slot.find (·.line.index) spans span.line.index with
  | taken index =>
      rw [h] at hfind
      obtain ⟨found, hfound, hindex⟩ := hfind
      have hfits := hspans found (Array.mem_of_getElem? hfound)
      intro s hs
      obtain ⟨i, hi, rfl⟩ := Array.mem_iff_getElem.1 hs
      rw [Array.size_modify] at hi
      rw [Array.getElem_modify]
      split
      · next heq =>
          subst heq
          rw [Array.getElem?_eq_getElem hi, Option.some_inj] at hfound
          rw [hfound]
          refine fits_highlightAll hfits ?_
          rw [hfits.line_eq hspan hindex]
          exact hspan.fits
      · exact hspans _ (Array.getElem_mem hi)
  | free index =>
      rw [h] at hfind
      have hle : index ≤ spans.size := hfind
      intro s hs
      dsimp only at hs
      rw [Array.insertIdxIfInBounds, dif_pos hle] at hs
      rcases Array.mem_insertIdx.1 hs with rfl | hs
      · exact hspan
      · exact hspans s hs

theorem fits_foldl_place {others : List Span} (hspans : ∀ s ∈ spans, s.Fits file)
    (hothers : ∀ s ∈ others, s.Fits file) : ∀ s ∈ others.foldl place spans, s.Fits file := by
  induction others generalizing spans with
  | nil => exact hspans
  | cons first others ih =>
      obtain ⟨hfirst, hrest⟩ := List.forall_mem_cons.1 hothers
      exact ih (fits_place hspans hfirst) hrest

end Span

/-! ## Excerpts -/

namespace Excerpt

variable {file : File} {e a b : Excerpt} {es : List Excerpt} {index : Nat}

/-- An excerpt of a file, or the detached one, with lines of this file and nothing around
them. -/
structure Fits (file : File) (e : Excerpt) : Prop extends e.Of file where
  spans : ∀ span ∈ e.spans, span.Fits file
  leading_eq : e.leading = []
  trailing_eq : e.trailing = []

/-- An excerpt that fits and is not the detached one: it names the file, and something on the
lines of the file is highlighted. -/
structure Inside (file : File) (e : Excerpt) : Prop extends e.Shows file, e.Fits file

theorem fits_detached (file : File) : detached.Fits file where
  toOf := of_detached file
  spans span hspan := absurd hspan (Array.not_mem_empty span)
  leading_eq := rfl
  trailing_eq := rfl

theorem Fits.absorb (ha : a.Fits file) (hb : b.Fits file) : (a.absorb b).Fits file := by
  refine ⟨ha.toOf.absorb hb.toOf, ?_, ?_, ?_⟩
  · rw [absorb_eq a hb.toWellFormed]
    exact Span.fits_foldl_place ha.spans fun s hs => hb.spans s (Array.mem_toList_iff.1 hs)
  · rw [absorb_eq a hb.toWellFormed, ha.leading_eq]
    exact hb.leading_eq
  · rw [absorb_eq a hb.toWellFormed, ha.trailing_eq]
    exact hb.trailing_eq

theorem fits_union (hes : ∀ e ∈ es, e.Fits file) : (union es).Fits file := by
  induction es with
  | nil => exact fits_detached file
  | cons e es ih =>
      obtain ⟨he, hrest⟩ := List.forall_mem_cons.1 hes
      rw [union_cons he.toOf fun e he => (hrest e he).toOf]
      exact he.absorb (ih hrest)

/-- What is merged from places inside a file is inside it. -/
theorem inside_union (hne : es ≠ []) (hes : ∀ e ∈ es, e.Inside file) : (union es).Inside file := by
  have hshows := shows_union hne fun e he => (hes e he).toShows
  have hfits := fits_union fun e he => (hes e he).toFits
  exact ⟨hshows, hfits.spans, hfits.leading_eq, hfits.trailing_eq⟩

theorem inside_ofHighlight (hfile : file.Numbered) {h : Highlight} (hindex : index < file.lineCount)
    (hfits : h.Fits (file.line index)) :
    (ofHighlight file.name (file.line index) h).Inside file := by
  have hle : index ≤ file.lastIndex := Nat.le_sub_one_of_lt hindex
  have heq := hfile.index_eq index hle
  refine ⟨shows_ofHighlight h heq, ?_, rfl, rfl⟩
  intro span hspan
  rw [ofHighlight, ofSpans, List.mem_toArray, List.mem_singleton] at hspan
  subst hspan
  refine ⟨?_, fun h' hmem => ?_⟩
  · have hsize : index < file.lines.size := hindex
    rw [heq, Array.getElem?_eq_getElem hsize, File.line_eq_getElem hsize]
  · rw [List.mem_toArray, List.mem_singleton] at hmem
    exact hmem ▸ hfits

end Excerpt

/-- A node whose leaves are inside a file is inside it. -/
theorem Leafy.inside_excerpt {file : File} {α : Type} [Node α] [Leafy α] {a : α}
    (hne : leaves a ≠ []) (h : ∀ e ∈ leaves a, e.Inside file) :
    (Node.excerpt a).Inside file := by
  rw [excerpt_eq_union fun e he => (h e he).toOf]
  exact Excerpt.inside_union hne h

/-! ## Positions -/

namespace File

variable {file : File} {p : Position} {count : Nat}

/-- A position of a file: on one of its lines, and not behind the end of this line. -/
structure Holds (file : File) (p : Position) : Prop where
  line_lt : p.line < file.lineCount
  column_le : p.column ≤ (file.lineAt p).length

theorem length_rest (file : File) (p : Position) :
    (file.rest p).length = (file.lineAt p).length - p.column := by
  rw [rest, List.length_drop, Array.length_toList, Line.length]

theorem Holds.right (hp : file.Holds p) (hle : count ≤ (file.rest p).length) :
    file.Holds (p.right count) := by
  refine ⟨hp.line_lt, ?_⟩
  have hcolumn := hp.column_le
  rw [length_rest] at hle
  show p.column + count ≤ (file.lineAt p).length
  omega

theorem Holds.right_one (hp : file.Holds p) (hline : file.atLineEnd p = false) :
    file.Holds (p.right 1) := by
  obtain ⟨c, hc⟩ := atLineEnd_eq_false_iff.1 hline
  exact hp.right (one_le_length_rest hc)

theorem Holds.skipWhile (hp : file.Holds p) (accept : Char → Bool) :
    file.Holds (file.skipWhile p accept) :=
  hp.right (length_takeWhile_le accept _)

theorem Holds.skipBlanksInLine (hp : file.Holds p) : file.Holds (file.skipBlanksInLine p) :=
  hp.skipWhile isBlank

theorem holds_lineStart {index : Nat} (h : index < file.lineCount) : file.Holds ⟨index, 0⟩ :=
  ⟨h, Nat.zero_le _⟩

theorem holds_lineEnd {index : Nat} (h : index < file.lineCount) : file.Holds (file.lineEnd index) :=
  ⟨h, Nat.le_refl _⟩

theorem lastIndex_lt (h : 0 < file.lineCount) : file.lastIndex < file.lineCount :=
  Nat.sub_lt h Nat.one_pos

theorem holds_endPosition (h : 0 < file.lineCount) : file.Holds file.endPosition :=
  holds_lineEnd (lastIndex_lt h)

/-- Skipping trivia stays in the file. -/
theorem Holds.skipTrivia {c : Cursor file} (hc : file.Holds c.position) :
    file.Holds c.skipTrivia.position := by
  fun_induction Cursor.skipTrivia c with
  | case1 c d hstop hline ih => exact ih (holds_lineStart (lt_lastIndex_iff.1 hline))
  | case2 c d hstop hline => exact holds_endPosition (Nat.zero_lt_of_lt hc.line_lt)
  | case3 c d hstop =>
      rw [Cursor.position_skipBlanksInLine]
      exact hc.skipBlanksInLine

/-- What stands behind a directive ends on its line. -/
theorem textBehind?_le (h : file.textBehind? p = some count) : count ≤ (file.rest p).length := by
  rw [textBehind?] at h
  split at h
  · cases h
  · cases h
    have hle := trimmedLength_le (file.lineAt p).chars.toList
    rw [Array.length_toList] at hle
    rw [length_rest, Line.length]
    omega

/-! ## Excerpts of positions -/

theorem highlight_fits (hp : file.Holds p) (hle : count ≤ (file.rest p).length) :
    Highlight.Fits (file.lineAt p) ⟨p.column, p.column + count⟩ :=
  ⟨Nat.le_add_right _ _, (hp.right hle).column_le⟩

variable (hfile : file.Numbered)

include hfile

theorem inside_stretch (hp : file.Holds p) (hle : count ≤ (file.rest p).length) :
    (file.stretch p count).Inside file :=
  Excerpt.inside_ofHighlight hfile hp.line_lt (highlight_fits hp hle)

theorem inside_pointAt (hp : file.Holds p) : (file.pointAt p).Inside file :=
  inside_stretch hfile hp (Nat.zero_le _)

theorem inside_stretch_one (hp : file.Holds p) (hline : file.atLineEnd p = false) :
    (file.stretch p 1).Inside file := by
  obtain ⟨c, hc⟩ := atLineEnd_eq_false_iff.1 hline
  exact inside_stretch hfile hp (one_le_length_rest hc)

theorem inside_charExcerpt (hp : file.Holds p) : (file.charExcerpt p).Inside file := by
  rw [charExcerpt]
  cases hline : file.atLineEnd p with
  | true => exact inside_pointAt hfile hp
  | false => exact inside_stretch_one hfile hp hline

/-! ## Lines around -/

theorem index_getElem {index : Nat} (h : index < file.lines.size) :
    file.lines[index].index = index := by
  rw [← line_eq_getElem h]
  exact hfile.index_eq index (Nat.le_sub_one_of_lt h)

/-- The lines from one to another have the indices between the two. -/
theorem mem_extract {first last : Nat} {line : Line}
    (h : line ∈ (file.lines.extract first last).toList) :
    first ≤ line.index ∧ line.index < last ∧ file.lines[line.index]? = some line := by
  obtain ⟨i, hi, rfl⟩ := Array.mem_iff_getElem.1 (Array.mem_toList_iff.1 h)
  rw [Array.size_extract] at hi
  have hsize : first + i < file.lines.size := by omega
  rw [Array.getElem_extract, index_getElem hfile hsize, Array.getElem?_eq_getElem hsize]
  exact ⟨Nat.le_add_right _ _, by omega, rfl⟩

/-- The lines from one to another have one index after the other. -/
theorem map_index_extract (first last : Nat) :
    (file.lines.extract first last).toList.map (·.index) =
      List.range' first (min last file.lineCount - first) := by
  apply List.ext_getElem
  · rw [List.length_map, Array.length_toList, Array.size_extract, List.length_range', lineCount]
  · intro i hi hi'
    rw [List.length_range', lineCount] at hi'
    rw [List.getElem_map, Array.getElem_toList, Array.getElem_extract,
      index_getElem hfile (by omega), List.getElem_range', Nat.one_mul]

theorem pairwise_extract (first last : Nat) :
    (file.lines.extract first last).toList.Pairwise fun a b => a.index < b.index := by
  rw [← List.pairwise_map (R := (· < ·)), map_index_extract hfile]
  exact List.pairwise_lt_range'

end File

/-! ## Excerpts in range -/

namespace Excerpt

variable {file : File} {e : Excerpt}

/-- The lines that an excerpt shows, from the first one above to the last one below. -/
def lines (e : Excerpt) : List Line :=
  e.leading ++ e.spans.toList.map (·.line) ++ e.trailing

/-- An excerpt that names a file and shows lines of it, each of them below the one before, with
highlights that are ranges of columns of their lines. -/
structure InRange (file : File) (e : Excerpt) : Prop where
  file_eq : e.file = some file.name
  isLine : ∀ line ∈ e.lines, file.lines[line.index]? = some line
  ascending : e.lines.Pairwise fun a b => a.index < b.index
  highlights : ∀ span ∈ e.spans, ∀ h ∈ span.highlights,
    h.start ≤ h.stop ∧ h.stop ≤ span.line.length

/-- An excerpt that covers lines of the file, each of them below the one before. -/
structure OnLines (file : File) (e : Excerpt) : Prop where
  getElem?_eq : ∀ span ∈ e.spans, file.lines[span.line.index]? = some span.line
  ascending : Span.Ascending e.spans.toList

instance (file : File) (e : Excerpt) : Decidable (e.OnLines file) :=
  decidable_of_iff ((∀ span ∈ e.spans, file.lines[span.line.index]? = some span.line) ∧
      Span.Ascending e.spans.toList)
    ⟨fun ⟨hlines, hup⟩ => ⟨hlines, hup⟩, fun h => ⟨h.getElem?_eq, h.ascending⟩⟩

theorem Fits.onLines (he : e.Fits file) : e.OnLines file :=
  ⟨fun span hspan => (he.spans span hspan).getElem?_eq, he.ascending⟩

theorem OnLines.lines_spec (he : e.OnLines file) :
    (∀ line ∈ e.spans.toList.map (·.line), file.lines[line.index]? = some line) ∧
      (e.spans.toList.map (·.line)).Pairwise fun a b => a.index < b.index := by
  constructor
  · refine List.forall_mem_map.2 fun span hspan => ?_
    exact he.getElem?_eq span (Array.mem_toList_iff.1 hspan)
  · exact List.pairwise_map.2 he.ascending

theorem Inside.inRange (he : e.Inside file) : e.InRange file := by
  have hlines : e.lines = e.spans.toList.map (·.line) := by
    rw [lines, he.leading_eq, he.trailing_eq, List.nil_append, List.append_nil]
  obtain ⟨hisLine, hascending⟩ := he.toFits.onLines.lines_spec
  refine ⟨he.file_eq, hlines ▸ hisLine, hlines ▸ hascending, ?_⟩
  intro span hspan h hmem
  have hfits := (he.spans span hspan).fits h hmem
  exact ⟨hfits.start_le, hfits.stop_le⟩

/-- The first and the last line of an excerpt, or the one given if it has none, bound its
lines. -/
theorem OnLines.index_bounds (he : e.OnLines file) (index : Nat) {span : Span}
    (hspan : span ∈ e.spans) :
    (e.spans[0]?.map (·.line.index)).getD index ≤ span.line.index ∧
      span.line.index ≤ (e.spans.back?.map (·.line.index)).getD index := by
  obtain ⟨i, hi, rfl⟩ := Array.mem_iff_getElem.1 hspan
  have hget := Array.getElem?_eq_getElem hi
  have hfirst := Array.getElem?_eq_getElem (Nat.zero_lt_of_lt hi)
  have hlt : e.spans.size - 1 < e.spans.size := by omega
  have hlast := Array.getElem?_eq_getElem hlt
  rw [Array.back?, hfirst, hlast]
  constructor
  · rcases Nat.eq_zero_or_pos i with rfl | hpos
    · exact Nat.le_refl _
    · exact Nat.le_of_lt (lt_of_pairwise_toList he.ascending hfirst hget hpos)
  · rcases Nat.eq_or_lt_of_le (Nat.le_sub_one_of_lt hi) with heq | hlt'
    · subst heq
      exact Nat.le_refl _
    · exact Nat.le_of_lt (lt_of_pairwise_toList he.ascending hget hlast hlt')

theorem OnLines.first_le_last (he : e.OnLines file) (index : Nat) :
    (e.spans[0]?.map (·.line.index)).getD index ≤
      (e.spans.back?.map (·.line.index)).getD index := by
  rcases Nat.eq_zero_or_pos e.spans.size with hempty | hpos
  · rw [Array.eq_empty_of_size_eq_zero hempty]
    exact Nat.le_refl _
  · have hbounds := he.index_bounds index (Array.getElem_mem hpos)
    exact Nat.le_trans hbounds.1 hbounds.2

/-- The lines around those of an excerpt are lines of the file, and they go up with them. -/
theorem OnLines.lines_surround (hfile : file.Numbered) (he : e.OnLines file) (p : Position)
    (before after : Nat) :
    (∀ line ∈ (file.surround p e before after).lines, file.lines[line.index]? = some line) ∧
      (file.surround p e before after).lines.Pairwise fun a b => a.index < b.index := by
  obtain ⟨hisLine, hascending⟩ := he.lines_spec
  have hbounds := fun (span : Span) (hspan : span ∈ e.spans) => he.index_bounds p.line hspan
  have hordered := he.first_le_last p.line
  rw [File.surround]
  generalize (e.spans[0]?.map (·.line.index)).getD p.line = first at hbounds hordered ⊢
  generalize (e.spans.back?.map (·.line.index)).getD p.line = last at hbounds hordered ⊢
  have hlines : ∀ line ∈ e.spans.toList.map (·.line), first ≤ line.index ∧ line.index ≤ last :=
    List.forall_mem_map.2 fun span hspan => hbounds span (Array.mem_toList_iff.1 hspan)
  constructor
  · simp only [lines, List.forall_mem_append]
    refine ⟨⟨fun line hline => ?_, hisLine⟩, fun line hline => ?_⟩
    · exact (File.mem_extract hfile hline).2.2
    · exact (File.mem_extract hfile hline).2.2
  · simp only [lines, List.pairwise_append, List.mem_append]
    refine ⟨⟨File.pairwise_extract hfile _ _, hascending, ?_⟩, File.pairwise_extract hfile _ _, ?_⟩
    · intro a ha b hb
      exact Nat.lt_of_lt_of_le (File.mem_extract hfile ha).2.1 (hlines b hb).1
    · intro a ha b hb
      have hbelow := (File.mem_extract hfile hb).1
      rcases ha with ha | ha
      · have habove := (File.mem_extract hfile ha).2.1
        omega
      · have hle := (hlines a ha).2
        omega

/-- A place inside a file shown with the lines around it is in range. -/
theorem Inside.inRange_surround (hfile : file.Numbered) (he : e.Inside file) (p : Position)
    (before after : Nat) : (file.surround p e before after).InRange file := by
  obtain ⟨hisLine, hascending⟩ := he.toFits.onLines.lines_surround hfile p before after
  exact ⟨he.file_eq, hisLine, hascending, he.inRange.highlights⟩

end Excerpt

/-! ## Reports -/

/-- Something holds of every place that a report points at, those of related notes included. -/
def Diagnostic.Everywhere (P : Excerpt → Prop) (d : Diagnostic) : Prop :=
  ∀ notice ∈ d.chain, P notice.excerpt

namespace Diagnostic.Everywhere

variable {P Q : Excerpt → Prop} {place origin : Excerpt} {d other : Diagnostic}

theorem mono (hd : d.Everywhere P) (h : ∀ e, P e → Q e) : d.Everywhere Q :=
  fun notice hnotice => h _ (hd notice hnotice)

theorem plain (severity : Severity) (message : String) (h : P place) :
    (Diagnostic.plain severity message place).Everywhere P :=
  List.forall_mem_singleton.2 h

theorem error (code : Code) (message : String) (h : P place) :
    (Diagnostic.error code message place).Everywhere P :=
  List.forall_mem_singleton.2 h

theorem withNote (hd : d.Everywhere P) (note : String) : (d.withNote note).Everywhere P := by
  obtain ⟨hmain, hrelated⟩ := List.forall_mem_cons.1 hd
  exact List.forall_mem_cons.2 ⟨hmain, hrelated⟩

theorem withRelated (hd : d.Everywhere P) (hother : other.Everywhere P) :
    (d.withRelated other).Everywhere P := by
  obtain ⟨hmain, -⟩ := List.forall_mem_cons.1 hd
  exact List.forall_mem_cons.2 ⟨hmain, hother⟩

end Diagnostic.Everywhere

section

variable {P : Excerpt → Prop} {place origin : Excerpt}

/-- A lexical fault is reported where it is and where its token begins. -/
theorem LexicalFault.everywhere_reportAt (fault : LexicalFault) (hplace : P place)
    (horigin : P origin) : (fault.reportAt place origin).Everywhere P := by
  have herror := Diagnostic.Everywhere.error fault.code fault.message hplace
  cases fault
  case unterminatedString =>
    exact (herror.withNote _).withRelated (.plain .note _ horigin)
  all_goals exact herror

theorem DirectiveFault.everywhere_report (fault : DirectiveFault) (hplace : P place) :
    (fault.report place).Everywhere P := by
  have herror := Diagnostic.Everywhere.error fault.code fault.message hplace
  rw [report]
  split
  · exact herror.withNote _
  · exact herror

/-- A fault in a directive is reported where it is and where the directive was opened. -/
theorem DirectiveFault.everywhere_reportFrom (fault : DirectiveFault) (hplace : P place)
    (horigin : P origin) : (fault.reportFrom place origin).Everywhere P := by
  have hreport := fault.everywhere_report hplace
  rw [reportFrom]
  split
  · exact hreport.withRelated (.plain .note _ horigin)
  · exact hreport

theorem SyntaxFault.everywhere_report (fault : SyntaxFault) {ending : Excerpt}
    (hplace : P (fault.place ending)) : (fault.report ending).Everywhere P := by
  have herror := Diagnostic.Everywhere.error fault.code fault.message hplace
  rw [report]
  split
  · exact herror.withNote _
  · exact herror

end
end Kiln
