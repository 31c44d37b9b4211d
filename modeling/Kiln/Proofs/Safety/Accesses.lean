import Kiln.Proofs.Safety.Bounds

/-!
# Accesses to a file

`File.line` gives an empty line past the end of a file, `Line.slice` is cut short by the line,
and `Excerpt.ofHighlight` highlights whatever columns it is given.  A run that takes a line or a
part of it, or highlights a part of it, directly has to know that it is there.  A guarded run
asks each time and stops with a `Breach` if it is not; so a guarded run that comes to an end,
with the result of the running definition, has taken nothing that is not there.

The numbers of the running definitions have no bound, those of lines and columns fit a word.  A
guarded run that adds a number of the caller's to one of these asks whether the sum still does.

This module has the guarded accesses: to lines, to what is left of a line, to the excerpts of
positions, and to the lines of excerpts that are merged.  At a position of the file each of them
succeeds.
-/

namespace Kiln

/-! ## Guarded runs -/

/-- Why a guarded run stops. -/
inductive Breach where
  /-- A list of `count` elements was asked for the one at an index that it does not have. -/
  | index (index count : Nat)
  /-- A list of `count` elements was asked for those from `start` up to `stop`. -/
  | range (start stop count : Nat)
  /-- A number was to be taken from a smaller one. -/
  | difference (smaller number : Nat)
  /-- Two numbers were to be added whose sum no word holds. -/
  | overflow (number added : Nat)
  /-- Two positions were to be cut apart that bound no stretch of a line. -/
  | cut (e : CutError)
  /-- Columns were to be highlighted that a line of a length does not have. -/
  | highlight (h : Highlight) (length : Nat)
  /-- Excerpts of two files were to be merged. -/
  | mismatch (e : FileMismatch)
  /-- A loop did not move on. -/
  | standstill (p : Position)
  deriving DecidableEq

/-- The result of a guarded run. -/
abbrev Guarded (α : Type) := Except Breach α

namespace Guarded

variable {α β : Type}

theorem ok_bind (a : α) (f : α → Guarded β) : ((.ok a : Guarded α) >>= f) = f a := rfl

/-- The element of an array at an index. -/
def elementOf (as : Array α) (index : Nat) : Guarded α :=
  if h : index < as.size then .ok as[index] else .error (.index index as.size)

/-- The elements of an array from an index up to another. -/
def sliceOf (as : Array α) (start stop : Nat) : Guarded (Array α) :=
  if start ≤ stop ∧ stop ≤ as.size then .ok (as.extract start stop)
  else .error (.range start stop as.size)

/-- The difference of two numbers. -/
def minus (a b : Nat) : Guarded Nat :=
  if b ≤ a then .ok (a - b) else .error (.difference a b)

/-- The greatest number that a word of 64 bits holds. -/
def maxWord : Nat := 0xFFFFFFFFFFFFFFFF

/-- The sum of `a`, the number of a line or of a column, and any other number, if a word holds the
sum as it holds `a`. -/
def plus (a b : Nat) : Guarded Nat :=
  if b ≤ maxWord - a then .ok (a + b) else .error (.overflow a b)

/-- The code points of a line from one column up to another, as far as the line goes. -/
def slice (line : Line) (start stop : Nat) : Guarded (List Char) := do
  let last := min stop line.length
  let chars ← sliceOf line.chars (min start last) last
  return chars.toList

theorem sliceOf_eq {as : Array α} {start stop : Nat} (hle : start ≤ stop) (hsize : stop ≤ as.size) :
    sliceOf as start stop = .ok (as.extract start stop) :=
  if_pos ⟨hle, hsize⟩

/-- A range that is cut short lies in the array. -/
theorem sliceOf_min (as : Array α) (start stop : Nat) :
    sliceOf as (min start (min stop as.size)) (min stop as.size) = .ok (as.extract start stop) := by
  rw [sliceOf_eq (Nat.min_le_right _ _) (Nat.min_le_right _ _)]
  congr 1
  apply Array.ext
  · simp only [Array.size_extract]
    omega
  · intro i hi hi'
    simp only [Array.size_extract] at hi'
    have hstart : min start (min stop as.size) = start := by omega
    simp only [Array.getElem_extract, hstart]

theorem slice_eq (line : Line) (start stop : Nat) :
    slice line start stop = .ok (line.slice start stop) := by
  rw [slice, Line.length, sliceOf_min]
  rfl

theorem minus_eq {a b : Nat} (h : b ≤ a) : minus a b = .ok (a - b) := if_pos h

theorem plus_eq {a b : Nat} (h : a + b ≤ maxWord) : plus a b = .ok (a + b) :=
  if_pos (Nat.le_sub_of_add_le' h)

/-- A number to which nothing is added stays the one that a word holds. -/
theorem plus_zero (a : Nat) : plus a 0 = .ok a := if_pos (Nat.zero_le _)

/-- No word holds the sum of the greatest number and one. -/
example : plus 1 maxWord = .error (.overflow 1 maxWord) := rfl

/-! ## Lines -/

variable {file : File} {p : Position}

/-- The line at an index. -/
def lineOf (file : File) (index : Nat) : Guarded Line := elementOf file.lines index

/-- The index of the last line. -/
def lastLine (file : File) : Guarded Nat := minus file.lineCount 1

/-- The end of the file. -/
def endPosition (file : File) : Guarded Position := do
  let last ← lastLine file
  let line ← lineOf file last
  return ⟨last, line.length⟩

theorem lineOf_eq {index : Nat} (h : index < file.lineCount) :
    lineOf file index = .ok (file.line index) := by
  have hsize : index < file.lines.size := h
  rw [lineOf, elementOf, dif_pos hsize, File.line_eq_getElem hsize]

theorem lastLine_eq (h : 0 < file.lineCount) : lastLine file = .ok file.lastIndex :=
  minus_eq h

theorem endPosition_eq (h : 0 < file.lineCount) : endPosition file = .ok file.endPosition := by
  rw [endPosition, lastLine_eq h, ok_bind, lineOf_eq (File.lastIndex_lt h)]
  rfl

/-! ## What is left of a line -/

/-- The code points from a position to the end of its line. -/
def rest (file : File) (p : Position) : Guarded (List Char) := do
  let line ← lineOf file p.line
  slice line p.column line.length

/-- The code point at a position, if it is not at the end of its line. -/
def current (file : File) (p : Position) : Guarded (Option Char) := do
  let line ← lineOf file p.line
  return line.chars[p.column]?

/-- Whether no code point of the line is left. -/
def atLineEnd (file : File) (p : Position) : Guarded Bool := do
  let line ← lineOf file p.line
  return line.length ≤ p.column

/-- Whether no code point of the file is left. -/
def atEnd (file : File) (p : Position) : Guarded Bool := do
  if ← atLineEnd file p then
    let last ← lastLine file
    return p.line == last
  else return false

/-- What lies `offset` code points ahead on the line. -/
def ahead (file : File) (p : Position) (offset : Nat) : Guarded Ahead := do
  let column ← plus p.column offset
  let line ← lineOf file p.line
  let lineEnd := decide (line.length ≤ column)
  let last ← lastLine file
  return ⟨line.chars[column]?, lineEnd, lineEnd && p.line == last⟩

/-- Whether a text stands at a position, on one line. -/
def startsWith (file : File) (p : Position) (text : List Char) : Guarded Bool := do
  let chars ← rest file p
  return text.isPrefixOf chars

/-- Past the code points of the line for which `accept` holds. -/
def eatWhile (file : File) (p : Position) (accept : Char → Bool) : Guarded Position := do
  let line ← lineOf file p.line
  return p.right ((line.chars.toList.drop p.column).takeWhile accept).length

/-- One code point to the right, stopping at the end of the line. -/
def stepInLine (file : File) (p : Position) : Guarded Position := do
  if ← atLineEnd file p then return p else return p.right 1

/-- Whether only blanks come before a position on its line. -/
def onlyBlanksBefore (file : File) (p : Position) : Guarded Bool := do
  let line ← lineOf file p.line
  let chars ← slice line 0 p.column
  return chars.all isBlank

section

variable (hp : file.Holds p)

include hp

theorem rest_eq : rest file p = .ok (file.rest p) := by
  have hslice : (file.line p.line).slice p.column (file.line p.line).length = file.rest p := by
    rw [Line.slice, Array.toList_extract, List.extract_eq_take_drop, Line.length,
      ← Array.length_toList, ← List.length_drop, List.take_length]
    rfl
  rw [rest, lineOf_eq hp.line_lt, ok_bind, slice_eq, hslice]

theorem current_eq : current file p = .ok (file.charAt p) := by
  rw [current, lineOf_eq hp.line_lt]
  rfl

theorem atLineEnd_eq : atLineEnd file p = .ok (file.atLineEnd p) := by
  rw [atLineEnd, lineOf_eq hp.line_lt]
  rfl

theorem atEnd_eq : atEnd file p = .ok (file.atEnd p) := by
  rw [atEnd, atLineEnd_eq hp, ok_bind, File.atEnd]
  cases file.atLineEnd p with
  | true =>
      rw [if_pos rfl, lastLine_eq (Nat.zero_lt_of_lt hp.line_lt)]
      rfl
  | false => rfl

theorem ahead_eq {offset : Nat} (hword : p.column + offset ≤ maxWord) :
    ahead file p offset = .ok (file.ahead p offset) := by
  rw [ahead, plus_eq hword, ok_bind, lineOf_eq hp.line_lt, ok_bind,
    lastLine_eq (Nat.zero_lt_of_lt hp.line_lt)]
  rfl

theorem startsWith_eq (text : List Char) :
    startsWith file p text = .ok (file.startsWith p text) := by
  rw [startsWith, rest_eq hp]
  rfl

theorem eatWhile_eq (accept : Char → Bool) :
    eatWhile file p accept = .ok (file.skipWhile p accept) := by
  rw [eatWhile, lineOf_eq hp.line_lt]
  rfl

theorem stepInLine_eq : stepInLine file p = .ok (file.stepInLine p) := by
  rw [stepInLine, atLineEnd_eq hp, ok_bind, File.stepInLine]
  split <;> rfl

theorem onlyBlanksBefore_eq : onlyBlanksBefore file p = .ok (file.onlyBlanksBefore p) := by
  rw [onlyBlanksBefore, lineOf_eq hp.line_lt, ok_bind, slice_eq]
  rfl

end

/-! ## Excerpts -/

/-- One highlight on one line. -/
def highlight (file : File) (line : Line) (h : Highlight) : Guarded Excerpt :=
  if h.Fits line then .ok (.ofHighlight file.name line h) else .error (.highlight h line.length)

/-- Text and excerpt from one position to another on the same line. -/
def finish (file : File) (start stop : Position) : Guarded (String × Excerpt) :=
  match file.cut start stop with
  | .error e => .error (.cut e)
  | .ok _ => do
    let line ← lineOf file start.line
    let chars ← slice line start.column stop.column
    let excerpt ← highlight file line ⟨start.column, stop.column⟩
    return (String.ofList chars, excerpt)

/-- The empty place at a position. -/
def point (file : File) (p : Position) : Guarded Excerpt := do
  let line ← lineOf file p.line
  highlight file line (.point p.column)

/-- The code point at a position, or the empty place at the end of a line. -/
def charExcerpt (file : File) (p : Position) : Guarded Excerpt := do
  if ← atLineEnd file p then point file p
  else
    let (_, excerpt) ← finish file p (p.right 1)
    return excerpt

/-- A line from its first to its last column. -/
def wholeLine (file : File) (index : Nat) : Guarded Excerpt := do
  let line ← lineOf file index
  highlight file line ⟨0, line.length⟩

/-- Shows up to `before` lines above and `after` lines below the lines of an excerpt; around the
position's line if the excerpt covers none. -/
def surround (file : File) (p : Position) (e : Excerpt) (before after : Nat) :
    Guarded Excerpt := do
  let first := (e.spans[0]?.map (·.line.index)).getD p.line
  let last := (e.spans.back?.map (·.line.index)).getD p.line
  let beyond ← plus (last + 1) after
  let stop := min beyond file.lineCount
  let leading ← sliceOf file.lines (first - before) first
  let trailing ← sliceOf file.lines (min (last + 1) stop) stop
  return { e with leading := leading.toList, trailing := trailing.toList }

theorem highlight_eq {line : Line} {h : Highlight} (hfits : h.Fits line) :
    highlight file line h = .ok (.ofHighlight file.name line h) :=
  if_pos hfits

section

variable (hp : file.Holds p)

include hp

/-- Two positions on one line, in order, can be cut apart. -/
theorem finish_right {count : Nat} (hle : count ≤ (file.rest p).length) :
    finish file p (p.right count) = .ok (file.textAt p count, file.stretch p count) := by
  have hcut : file.cut p (p.right count) = .ok (file.textAt p count, file.stretch p count) := by
    have hle : ¬(p.right count).column < p.column := Nat.not_lt.2 (Nat.le_add_right _ _)
    have hcount : (p.right count).column - p.column = count := Nat.add_sub_cancel_left _ _
    rw [File.cut, if_neg (by exact not_not_intro rfl), if_neg hle]
    simp only [hcount]
  have htext : String.ofList ((file.line p.line).slice p.column (p.right count).column) =
      file.textAt p count := by
    rw [Line.slice, Array.toList_extract, List.extract_eq_take_drop, Position.right,
      Nat.add_sub_cancel_left]
    rfl
  have hfits : Highlight.Fits (file.line p.line) ⟨p.column, (p.right count).column⟩ :=
    File.highlight_fits hp hle
  rw [finish, hcut, lineOf_eq hp.line_lt]
  simp only [ok_bind, slice_eq, htext, highlight_eq hfits]
  rfl

theorem point_eq : point file p = .ok (file.pointAt p) := by
  rw [point, lineOf_eq hp.line_lt]
  exact highlight_eq ⟨Nat.le_refl _, hp.column_le⟩

theorem charExcerpt_eq : charExcerpt file p = .ok (file.charExcerpt p) := by
  rw [charExcerpt, atLineEnd_eq hp, ok_bind, File.charExcerpt]
  cases hline : file.atLineEnd p with
  | true => exact point_eq hp
  | false =>
      obtain ⟨c, hc⟩ := File.atLineEnd_eq_false_iff.1 hline
      rw [if_neg Bool.false_ne_true, finish_right hp (File.one_le_length_rest hc)]
      rfl

end

/-- Two positions in the wrong order bound no stretch. -/
example : finish (.ofText "main.kn" "ab") ⟨0, 2⟩ ⟨0, 1⟩ = .error (.cut (.reversed 2 1)) := rfl

theorem wholeLine_eq {index : Nat} (h : index < file.lineCount) : wholeLine file index =
    .ok (.ofHighlight file.name (file.line index) ⟨0, (file.line index).length⟩) := by
  rw [wholeLine, lineOf_eq h]
  exact highlight_eq ⟨Nat.zero_le _, Nat.le_refl _⟩

/-- Lines can be shown above and below if the first line that is covered is one of the file or
the one below it, and a word holds the index of the lowest line that is asked for. -/
theorem surround_eq {e : Excerpt} {before after : Nat}
    (h : (e.spans[0]?.map (·.line.index)).getD p.line ≤ file.lineCount)
    (hplus : plus ((e.spans.back?.map (·.line.index)).getD p.line + 1) after =
      .ok ((e.spans.back?.map (·.line.index)).getD p.line + 1 + after)) :
    surround file p e before after = .ok (file.surround p e before after) := by
  rw [surround]
  simp only [hplus, sliceOf_eq (Nat.sub_le _ before) h, ok_bind, File.lineCount, sliceOf_min]
  rfl

/-! ## Merging -/

/-- Adds a span to an array of spans. -/
def place (spans : Array Span) (span : Span) : Guarded (Array Span) :=
  match Slot.find (·.line.index) spans span.line.index with
  | .taken index => do
    let found ← elementOf spans index
    match span.highlights.find? fun h => !decide (h.Fits found.line) with
    | some h => .error (.highlight h found.line.length)
    | none => return spans.modify index (·.highlightAll span.highlights)
  | .free index =>
    if index ≤ spans.size then .ok (spans.insertIdxIfInBounds index span)
    else .error (.index index spans.size)

/-- Takes over the lines of an excerpt, and its file. -/
def absorb (e other : Excerpt) : Guarded Excerpt :=
  match e, other.file with
  | e, none => .ok e
  | ⟨_, spans, leading, trailing⟩, some name => do
    let spans ← other.spans.toList.foldlM place spans
    return {
      file := some name
      spans := spans
      leading := if leading.isEmpty then other.leading else leading
      trailing := if trailing.isEmpty then other.trailing else trailing }

/-- Adds an excerpt of the same file. -/
def add (e other : Excerpt) : Guarded Excerpt :=
  match e.mismatch? other with
  | none => absorb e other
  | some mismatch => .error (.mismatch mismatch)

/-- Merges excerpts of one file. -/
def union (es : List Excerpt) : Guarded Excerpt := es.foldlM add .detached

/-- A fold succeeds if each of its steps does and keeps what the next one needs. -/
theorem foldlM_eq {step : β → α → Guarded β} {next : β → α → β} {P : β → Prop} {Q : α → Prop}
    (h : ∀ b a, P b → Q a → step b a = .ok (next b a) ∧ P (next b a)) {as : List α}
    (has : ∀ a ∈ as, Q a) {b : β} (hb : P b) : as.foldlM step b = .ok (as.foldl next b) := by
  induction as generalizing b with
  | nil => rfl
  | cons a as ih =>
      obtain ⟨ha, hrest⟩ := List.forall_mem_cons.1 has
      obtain ⟨hstep, hnext⟩ := h b a hb ha
      rw [List.foldlM_cons, hstep, ok_bind, ih hrest hnext, List.foldl_cons]

/-- Lines of one file can be merged: those with one index are the same, so the highlights of one
are ranges of columns of the other. -/
theorem place_eq {spans : Array Span} {span : Span} (hspans : ∀ s ∈ spans, s.Fits file)
    (hspan : span.Fits file) : place spans span = .ok (Span.place spans span) := by
  have hfind := Slot.find_spec (·.line.index) spans span.line.index
  rw [place, Span.place]
  cases h : Slot.find (·.line.index) spans span.line.index with
  | taken index =>
      rw [h] at hfind
      obtain ⟨found, hfound, hindex⟩ := hfind
      obtain ⟨hlt, hget⟩ := Array.getElem?_eq_some_iff.1 hfound
      have hline := (hspans found (Array.mem_of_getElem? hfound)).line_eq hspan hindex
      have hnone : (span.highlights.find? fun h => !decide (h.Fits found.line)) = none := by
        rw [Array.find?_eq_none]
        intro h hmem
        simp [hline, hspan.fits h hmem]
      simp only [elementOf, dif_pos hlt, hget, ok_bind, hnone]
      rfl
  | free index =>
      rw [h] at hfind
      have hle : index ≤ spans.size := hfind
      simp only [if_pos hle]

theorem absorb_eq {e other : Excerpt} (he : ∀ s ∈ e.spans, s.Fits file)
    (hother : ∀ s ∈ other.spans, s.Fits file) : absorb e other = .ok (e.absorb other) := by
  obtain ⟨name?, spans, leading, trailing⟩ := e
  cases h : other.file with
  | none => simp only [absorb, Excerpt.absorb, h]
  | some name =>
      have hfold : other.spans.toList.foldlM place spans =
          .ok (other.spans.toList.foldl Span.place spans) := by
        refine foldlM_eq (P := fun spans => ∀ s ∈ spans, s.Fits file) (Q := Span.Fits file)
          (fun spans span hspans hspan => ?_) (fun s hs => hother s (Array.mem_toList_iff.1 hs)) he
        exact ⟨place_eq hspans hspan, Span.fits_place hspans hspan⟩
      simp only [absorb, Excerpt.absorb, h, hfold, ok_bind, Array.foldl_toList]
      rfl

/-- Places in one file can be merged. -/
theorem union_eq {es : List Excerpt} (hes : ∀ e ∈ es, e.Fits file) :
    union es = .ok (.union es) := by
  refine foldlM_eq (P := Excerpt.Fits file) (fun e other he hother => ?_) hes
    (Excerpt.fits_detached file)
  rw [he.toOf.add_eq hother.toOf, add, he.toOf.mismatch?_eq_none hother.toOf]
  exact ⟨absorb_eq he.spans hother.spans, he.absorb hother⟩

end Guarded
end Kiln
