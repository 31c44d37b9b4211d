import Kiln.Proofs.Reading.Steps
import Kiln.Report.Diagnostic
import Kiln.Token.Basic

/-!
# Parts of files

A file can be a part of another one: its lines, with other indices and endings, are
lines of the larger file that follow one another.  What is read at a position of the part
is read at the corresponding position of the whole, every excerpt showing the lines of
the whole in their stead (`mapLines`).

Reading the whole from where a part begins gives the pieces of the part and goes on
behind it, or fails as the part does.
-/

namespace Kiln

/-! ## Excerpts with other lines -/

/-- A span of another line. -/
def Span.mapLine (f : Line → Line) (span : Span) : Span := ⟨f span.line, span.highlights⟩

namespace Excerpt

/-- An excerpt with other lines in the place of its own. -/
def mapLines (f : Line → Line) (e : Excerpt) : Excerpt :=
  ⟨e.file, e.spans.map (Span.mapLine f), e.leading.map f, e.trailing.map f⟩

@[simp] theorem mapLines_detached (f : Line → Line) : detached.mapLines f = detached := by
  simp [detached, mapLines]

@[simp] theorem mapLines_ofHighlight (f : Line → Line) (name : String) (line : Line)
    (h : Highlight) :
    (ofHighlight name line h).mapLines f = ofHighlight name (f line) h := by
  simp [ofHighlight, ofSpans, mapLines, Span.mapLine]

end Excerpt

/-- A token shown on other lines. -/
def Token.mapLines (f : Line → Line) (t : Token) : Token := ⟨t.kind, t.text, t.excerpt.mapLines f⟩

/-- A notice shown on other lines. -/
def Notice.mapLines (f : Line → Line) (n : Notice) : Notice :=
  { n with excerpt := n.excerpt.mapLines f }

/-- A diagnostic shown on other lines. -/
def Diagnostic.mapLines (f : Line → Line) (d : Diagnostic) : Diagnostic :=
  ⟨d.main.mapLines f, d.related.map (Notice.mapLines f)⟩

/-- The position a number of lines below. -/
def Position.down (p : Position) (count : Nat) : Position := ⟨p.line + count, p.column⟩

@[simp] theorem Position.right_down (p : Position) (count lines : Nat) :
    (p.right count).down lines = (p.down lines).right count := rfl

namespace File

/-! ## Parts -/

/-- The lines of `part` are those of `whole` from line `offset` on, `f` giving the one for
the other. -/
structure PartOf (part whole : File) (offset : Nat) (f : Line → Line) : Prop where
  name_eq : whole.name = part.name
  line_eq : ∀ index < part.lineCount, whole.line (index + offset) = f (part.line index)
  chars_eq : ∀ index < part.lineCount, (f (part.line index)).chars = (part.line index).chars
  bound : offset + part.lineCount ≤ whole.lineCount

namespace PartOf

variable {part whole : File} {offset : Nat} {f : Line → Line} {p : Position}
  (h : part.PartOf whole offset f) (hp : p.line < part.lineCount)

include h

theorem getElem {index : Nat} (hindex : index < part.lines.size) :
    ∃ hwhole : index + offset < whole.lines.size,
      whole.lines[index + offset] = f part.lines[index] := by
  have hbound := h.bound
  have hline := h.line_eq index hindex
  have hwhole : index + offset < whole.lines.size := by
    simp only [lineCount] at hbound
    omega
  refine ⟨hwhole, ?_⟩
  simpa [line, hindex, hwhole] using hline

include hp

theorem lineAt : whole.lineAt (p.down offset) = f (part.lineAt p) :=
  h.line_eq p.line hp

theorem chars_lineAt : (whole.lineAt (p.down offset)).chars = (part.lineAt p).chars := by
  rw [h.lineAt hp]
  exact h.chars_eq p.line hp

theorem rest : whole.rest (p.down offset) = part.rest p := by
  rw [File.rest, h.chars_lineAt hp]
  rfl

theorem charAt : whole.charAt (p.down offset) = part.charAt p := by
  rw [← head?_rest, ← head?_rest, h.rest hp]

theorem atLineEnd : whole.atLineEnd (p.down offset) = part.atLineEnd p := by
  rw [File.atLineEnd, Line.length, h.chars_lineAt hp]
  rfl

theorem textAt (count : Nat) : whole.textAt (p.down offset) count = part.textAt p count := by
  rw [File.textAt, h.rest hp]
  rfl

theorem stretch (count : Nat) :
    whole.stretch (p.down offset) count = (part.stretch p count).mapLines f := by
  rw [File.stretch, File.stretch, Excerpt.mapLines_ofHighlight, h.lineAt hp, h.name_eq]
  rfl

theorem pointAt : whole.pointAt (p.down offset) = (part.pointAt p).mapLines f :=
  h.stretch hp 0

theorem charExcerpt : whole.charExcerpt (p.down offset) = (part.charExcerpt p).mapLines f := by
  rw [File.charExcerpt, File.charExcerpt, h.atLineEnd hp, h.pointAt hp, h.stretch hp]
  split <;> rfl

end PartOf

/-! ## Reading a part -/

section Transport

variable {α β : Type} {part whole : File} {offset : Nat} {f : Line → Line}
  {readPart : Cursor part → Found α} {readWhole : Cursor whole → Found β}
  {advancesPart : part.Advances readPart} {advancesWhole : whole.Advances readWhole}
  {move : α → β} {report : Diagnostic → Diagnostic}

/-- A piece that is read in a part is read in the whole. -/
def TransportsPieces (part whole : File) (offset : Nat) (readPart : Cursor part → Found α)
    (readWhole : Cursor whole → Found β) (move : α → β) : Prop :=
  ∀ p a, p.line < part.lineCount → (readPart (part.cursor p)).outcome = .ok a →
    (readWhole (whole.cursor (p.down offset))).outcome = .ok (move a) ∧
      (readWhole (whole.cursor (p.down offset))).stop = (readPart (part.cursor p)).stop.down offset

/-- What cannot be read in a part cannot be read in the whole. -/
def TransportsFaults (part whole : File) (offset : Nat) (readPart : Cursor part → Found α)
    (readWhole : Cursor whole → Found β) (report : Diagnostic → Diagnostic) : Prop :=
  ∀ p d, p.line < part.lineCount → (readPart (part.cursor p)).outcome = .error d →
    (readWhole (whole.cursor (p.down offset))).outcome = .error (report d)

variable (h : part.PartOf whole offset f)
  (hpieces : TransportsPieces part whole offset readPart readWhole move)

include h

/-- From where a line of a part ends or a comment begins, reading the whole goes on with
the line below. -/
theorem PartOf.piecesFrom_passed {p : Position} (hp : p.line < part.lineCount)
    (hrest : part.rest p = [] ∨ commentMark.isPrefixOf (part.rest p) = true) :
    piecesFrom advancesWhole (p.down offset) =
      if p.line + 1 < part.lineCount then
        piecesFrom advancesWhole (Position.down ⟨p.line + 1, 0⟩ offset)
      else piecesOfLine advancesWhole (part.lineCount + offset) := by
  rw [← h.rest hp] at hrest
  have hnext : (p.down offset).line + 1 = p.line + 1 + offset := Nat.add_right_comm _ _ _
  rw [File.piecesFrom_passed hrest, hnext]
  have hbound := h.bound
  split
  · rw [piecesOfLine, if_pos (by omega)]
    rfl
  · next hlast =>
      have hline : p.line + 1 = part.lineCount := by omega
      rw [hline]

include hpieces

/-- Behind the pieces of a part stand those of the lines below it. -/
theorem PartOf.piecesFrom_ok {p : Position} {as : List α} (hp : p.line < part.lineCount)
    (has : piecesFrom advancesPart p = .ok as) :
    piecesFrom advancesWhole (p.down offset) =
      (piecesOfLine advancesWhole (part.lineCount + offset)).map (as.map move ++ ·) := by
  refine reading_induct advancesPart
    (motive := fun p => ∀ as, piecesFrom advancesPart p = .ok as →
      piecesFrom advancesWhole (p.down offset) =
        (piecesOfLine advancesWhole (part.lineCount + offset)).map (as.map move ++ ·))
    ?below ?blank ?piece hp as has
  case below =>
    intro p hp hrest ih as has
    rw [File.piecesFrom_passed hrest, piecesOfLine] at has
    rw [h.piecesFrom_passed hp hrest]
    split at has
    · next hline =>
        rw [if_pos hline]
        exact ih hline as has
    · next hline =>
        cases has
        rw [if_neg hline]
        cases piecesOfLine advancesWhole (part.lineCount + offset) <;> rfl
  case blank =>
    intro p c more hp hrest hc ih as has
    rw [piecesFrom_blank hrest hc] at has
    rw [← h.rest hp] at hrest
    rw [piecesFrom_blank hrest hc]
    exact ih as has
  case piece =>
    intro p c more hp hrest hblank hcomment ih as has
    obtain ⟨a, behind, ha, hbehind, rfl⟩ := (piecesFrom_eq_ok_iff hrest hblank hcomment).1 has
    obtain ⟨hmoved, hstop⟩ := hpieces p a hp ha
    rw [← h.rest hp] at hrest hcomment
    rw [piecesFrom_piece hrest hblank hcomment, hmoved, hstop]
    show (piecesFrom advancesWhole _).map _ = _
    rw [ih a ha behind hbehind]
    cases piecesOfLine advancesWhole (part.lineCount + offset) <;> rfl

/-- Where a part cannot be read the whole cannot. -/
theorem PartOf.piecesFrom_error
    (hfaults : TransportsFaults part whole offset readPart readWhole report) {p : Position}
    {d : Diagnostic} (hp : p.line < part.lineCount)
    (hd : piecesFrom advancesPart p = .error d) :
    piecesFrom advancesWhole (p.down offset) = .error (report d) := by
  refine reading_induct advancesPart
    (motive := fun p => piecesFrom advancesPart p = .error d →
      piecesFrom advancesWhole (p.down offset) = .error (report d))
    ?below ?blank ?piece hp hd
  case below =>
    intro p hp hrest ih hd
    rw [File.piecesFrom_passed hrest, piecesOfLine] at hd
    rw [h.piecesFrom_passed hp hrest]
    split at hd
    · next hline =>
        rw [if_pos hline]
        exact ih hline hd
    · cases hd
  case blank =>
    intro p c more hp hrest hc ih hd
    rw [piecesFrom_blank hrest hc] at hd
    rw [← h.rest hp] at hrest
    rw [piecesFrom_blank hrest hc]
    exact ih hd
  case piece =>
    intro p c more hp hrest hblank hcomment ih hd
    have hfault := (piecesFrom_eq_error_iff hrest hblank hcomment).1 hd
    rw [← h.rest hp] at hrest hcomment
    rw [piecesFrom_eq_error_iff hrest hblank hcomment]
    rcases hfault with hfault | ⟨a, ha, hbehind⟩
    · exact .inl (hfaults p d hp hfault)
    · obtain ⟨hmoved, hstop⟩ := hpieces p a hp ha
      rw [hmoved, hstop]
      exact .inr ⟨move a, rfl, ih a ha hbehind⟩

/-- The whole is read from the line on with which a part begins: first the pieces of the
part, and then those of the lines below it. -/
theorem PartOf.piecesOfLine_ok {as : List α} (hpos : 0 < part.lineCount)
    (has : part.readAll readPart advancesPart = .ok as) :
    piecesOfLine advancesWhole offset =
      (piecesOfLine advancesWhole (part.lineCount + offset)).map (as.map move ++ ·) := by
  have hfirst : Position.down ⟨0, 0⟩ offset = ⟨offset, 0⟩ :=
    (Position.mk.injEq ..).mpr ⟨Nat.zero_add offset, rfl⟩
  have hread : piecesFrom advancesWhole (Position.down ⟨0, 0⟩ offset) = _ :=
    h.piecesFrom_ok hpieces (p := ⟨0, 0⟩) hpos has
  have hbound := h.bound
  rw [hfirst] at hread
  rw [← hread, piecesOfLine, if_pos (by omega)]

/-- Reading the whole from the line on with which a part begins fails as the part does. -/
theorem PartOf.piecesOfLine_error
    (hfaults : TransportsFaults part whole offset readPart readWhole report) {d : Diagnostic}
    (hpos : 0 < part.lineCount) (hd : part.readAll readPart advancesPart = .error d) :
    piecesOfLine advancesWhole offset = .error (report d) := by
  have hfirst : Position.down ⟨0, 0⟩ offset = ⟨offset, 0⟩ :=
    (Position.mk.injEq ..).mpr ⟨Nat.zero_add offset, rfl⟩
  have hread : piecesFrom advancesWhole (Position.down ⟨0, 0⟩ offset) = _ :=
    h.piecesFrom_error hpieces hfaults (p := ⟨0, 0⟩) hpos hd
  have hbound := h.bound
  rw [hfirst] at hread
  rw [← hread, piecesOfLine, if_pos (by omega)]

end Transport
end File
end Kiln
