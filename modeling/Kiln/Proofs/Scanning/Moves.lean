import Kiln.Directive.Reading
import Kiln.Proofs.Lexing.Symbols
import Kiln.Proofs.Scanning.Progress

/-!
# Cursors stay in the file and move forward

Whatever a cursor is moved by, be it a step, a search for a text or the reading of a token or a
directive, it ends at a position of the file that does not come before the one it stood at, also
if what is looked for is missing or what is read is faulty.  So a cursor that is put back to
positions it has held before is at a position of the file at any time.

Each way of moving has one lemma, which says that it goes *onward*.
-/

namespace Kiln
namespace File

/-- `q` is a position of the file, and does not come before `p`. -/
structure Onward (file : File) (p q : Position) : Prop where
  holds : file.Holds q
  le : p ≤ q

variable {file : File} {p q r : Position} {count : Nat}

/-! ## Going on -/

theorem Onward.trans (hpq : file.Onward p q) (hqr : file.Onward q r) : file.Onward p r :=
  ⟨hqr.holds, Position.le_trans hpq.le hqr.le⟩

namespace Holds

theorem onward_refl (hp : file.Holds p) : file.Onward p p := ⟨hp, Position.le_refl p⟩

theorem onward_right (hp : file.Holds p) (hle : count ≤ (file.rest p).length) :
    file.Onward p (p.right count) :=
  ⟨hp.right hle, Or.inr ⟨rfl, Nat.le_add_right _ _⟩⟩

theorem onward_right_one (hp : file.Holds p) (hline : file.atLineEnd p = false) :
    file.Onward p (p.right 1) :=
  ⟨hp.right_one hline, Or.inr ⟨rfl, Nat.le_add_right _ _⟩⟩

theorem onward_skipWhile (hp : file.Holds p) (accept : Char → Bool) :
    file.Onward p (file.skipWhile p accept) :=
  hp.onward_right (length_takeWhile_le accept _)

theorem onward_endPosition (hp : file.Holds p) : file.Onward p file.endPosition :=
  ⟨holds_endPosition (Nat.zero_lt_of_lt hp.line_lt), hp.le_endPosition⟩

theorem onward_lineStart {index : Nat} (hlt : p.line < index) (hindex : index < file.lineCount) :
    file.Onward p ⟨index, 0⟩ :=
  ⟨holds_lineStart hindex, Or.inl hlt⟩

/-! ## Steps -/

theorem onward_stepInLine (hp : file.Holds p) : file.Onward p (file.stepInLine p) := by
  rw [stepInLine]
  split
  · exact hp.onward_refl
  · next hline => exact hp.onward_right_one (Bool.eq_false_iff.2 hline)

theorem onward_step (hp : file.Holds p) : file.Onward p (file.step p) := by
  rw [step]
  split
  · split
    · next index hindex =>
        obtain ⟨hlt, hsize⟩ := lt_size_of_findLine? hindex
        exact onward_lineStart hlt hsize
    · exact hp.onward_endPosition
  · next hline => exact hp.onward_right_one (Bool.eq_false_iff.2 hline)

theorem onward_nextLine (hp : file.Holds p) : file.Onward p (file.nextLine p) := by
  rw [nextLine, nextLine?]
  split
  · next hlt => exact onward_lineStart (Nat.lt_succ_self _) (lt_lastIndex_iff.1 hlt)
  · exact hp.onward_endPosition

/-! ## Skipping -/

theorem onward_skipText (hp : file.Holds p) (text : List Char) :
    file.Onward p ((file.skipText? p text).getD p) := by
  rw [skipText?]
  split
  · next hstarts =>
      have hprefix := List.isPrefixOf_iff_prefix.1 hstarts
      exact hp.onward_right hprefix.length_le
  · exact hp.onward_refl

theorem onward_skipBlanks (hp : file.Holds p) : file.Onward p (file.skipBlanks p) := by
  fun_induction skipBlanks file p with
  | case1 p q hline hlt ih =>
      have hindex := lt_lastIndex_iff.1 hlt
      exact (onward_lineStart (Nat.lt_succ_self _) hindex).trans (ih (holds_lineStart hindex))
  | case2 p q hline hlast => exact hp.onward_endPosition
  | case3 p q hline => exact hp.onward_skipWhile isBlank

theorem onward_skipTrivia (hp : file.Holds p) :
    file.Onward p (file.cursor p).skipTrivia.position :=
  have hc : file.Holds (file.cursor p).position := hp
  ⟨hc.skipTrivia, (Cursor.skipsTrivia hc).le⟩

/-! ## Tokens -/

theorem onward_takeSymbol (hp : file.Holds p) :
    file.Onward p (file.cursor p).takeSymbol.2.position := by
  rw [Cursor.takeSymbol]
  split
  · next s hs => exact hp.onward_right (Symbol.isLongestPrefix_of_match? hs).isPrefix.length_le
  · exact hp.onward_refl

/-- A fault leaves the cursor behind what has been read of the token. -/
theorem onward_tokenAt (hp : file.Holds p) :
    file.Onward p (file.tokenAt (file.cursor p)).stop :=
  hp.onward_right (length_readToken_le (file.rest p))

/-! ## Directives -/

variable {head : DirectiveHead}

theorem onward_closeInclusion (hp : file.Holds p) (i : Inclusion) :
    file.Onward p (file.closeInclusion i p).stop := by
  rw [closeInclusion]
  dsimp only
  split <;> exact hp.onward_skipWhile isBlank

theorem onward_pathAt (hp : file.Holds p) (quote : PathQuote) (hline : file.atLineEnd p = false) :
    file.Onward p (file.pathAt head quote p).stop := by
  have hstart := hp.onward_right_one hline
  have hstop := hstart.trans (hstart.holds.onward_skipWhile fun c => !closesPath c)
  rw [File.skipWhile] at hstop
  rw [pathAt]
  dsimp only
  split
  · exact hstop
  · next c hc =>
      have hcloser := hstop.holds.onward_right_one (atLineEnd_eq_false_iff.2 ⟨c, hc⟩)
      split
      · split
        · exact hstop.trans hcloser
        · exact (hstop.trans hcloser).trans (hcloser.holds.onward_closeInclusion _)
      · exact hstop

theorem onward_inclusionAt (hp : file.Holds p) : file.Onward p (file.inclusionAt head p).stop := by
  have hstart : file.Onward p (file.skipBlanksInLine p) := hp.onward_skipWhile isBlank
  rw [inclusionAt]
  split
  · exact hstart
  · next c hc =>
      split
      · exact hstart
      · exact hstart.trans (hstart.holds.onward_pathAt _ (atLineEnd_eq_false_iff.2 ⟨c, hc⟩))

/-- A block without an end is read to the end of the file. -/
theorem onward_blockAt (hp : file.Holds p) (tag : Token) :
    file.Onward p (file.blockAt head tag p.line).stop := by
  rw [blockAt]
  split
  · exact hp.onward_endPosition
  · next closer hcloser =>
      obtain ⟨hlt, hsize⟩ := lt_size_of_findLine? hcloser
      exact ⟨holds_lineEnd hsize, Or.inl hlt⟩

theorem onward_inlineBlockAt (hp : file.Holds p) :
    file.Onward p (file.inlineBlockAt head p).stop := by
  have hstart : file.Onward p (file.skipBlanksInLine p) := hp.onward_skipWhile isBlank
  have htag := hstart.trans (hstart.holds.onward_skipWhile isWordPart)
  have hstop := htag.trans (htag.holds.onward_skipWhile isBlank)
  rw [inlineBlockAt]
  dsimp only
  split
  · exact hstart
  · split
    · exact hstop
    · exact hp.onward_blockAt _

theorem onward_directiveOfKindAt (hp : file.Holds p) (kind : DirectiveKind) :
    file.Onward p (file.directiveOfKindAt kind head p).stop := by
  cases kind with
  | inclusion => exact hp.onward_inclusionAt
  | inlineBlock => exact hp.onward_inlineBlockAt

theorem onward_directiveAt (hp : file.Holds p) (registry : Registry)
    (hhash : file.charAt p = some '#') : file.Onward p (file.directiveAt registry p).stop := by
  have hstart := hp.onward_right_one (atLineEnd_eq_false_iff.2 ⟨'#', hhash⟩)
  have hname := hstart.trans (hstart.holds.onward_skipWhile isDirectiveNamePart)
  rw [directiveAt]
  dsimp only
  split
  · split
    · exact hstart
    · split
      · exact hname
      · exact hname.trans (hname.holds.onward_directiveOfKindAt _)
  · exact hp.onward_refl

end Holds
end File

/-! ## Moves -/

/-- What moves a cursor. -/
inductive Move where
  /-- By one code point, and from the end of a line to the next line that is not empty. -/
  | step
  | stepInLine
  | nextLine
  /-- Past a text, if it comes next on the line. -/
  | skipText (text : List Char)
  | skipBlanks
  | skipBlanksInLine
  | skipWhile (accept : Char → Bool)
  | skipTrivia
  /-- Past a symbol, if one comes next. -/
  | takeSymbol
  | readToken
  | readDirective (registry : Registry)

namespace Move

/-- Where a move begun at a position ends, whether or not what is looked for is there and what is
read is faulty. -/
def stop (file : File) (p : Position) : Move → Position
  | .step => file.step p
  | .stepInLine => file.stepInLine p
  | .nextLine => file.nextLine p
  | .skipText text => (file.skipText? p text).getD p
  | .skipBlanks => file.skipBlanks p
  | .skipBlanksInLine => file.skipBlanksInLine p
  | .skipWhile accept => file.skipWhile p accept
  | .skipTrivia => (file.cursor p).skipTrivia.position
  | .takeSymbol => (file.cursor p).takeSymbol.2.position
  | .readToken => (file.tokenAt (file.cursor p)).stop
  | .readDirective registry => (file.directiveAt registry p).stop

/-- Directives are read where there is a hash; all else may be done anywhere. -/
def Allowed (file : File) (p : Position) : Move → Prop
  | .readDirective _ => file.charAt p = some '#'
  | _ => True

variable {file : File} {p : Position}

/-- Every move goes onward. -/
theorem onward (m : Move) (hp : file.Holds p) (hallowed : m.Allowed file p) :
    file.Onward p (m.stop file p) := by
  cases m with
  | step => exact hp.onward_step
  | stepInLine => exact hp.onward_stepInLine
  | nextLine => exact hp.onward_nextLine
  | skipText text => exact hp.onward_skipText text
  | skipBlanks => exact hp.onward_skipBlanks
  | skipBlanksInLine => exact hp.onward_skipWhile isBlank
  | skipWhile accept => exact hp.onward_skipWhile accept
  | skipTrivia => exact hp.onward_skipTrivia
  | takeSymbol => exact hp.onward_takeSymbol
  | readToken => exact hp.onward_tokenAt
  | readDirective registry => exact hp.onward_directiveAt registry hallowed

/-- A text that does not come next is not skipped. -/
theorem stop_skipText_of_not_prefix {text : List Char} (h : ¬text <+: file.rest p) :
    (skipText text).stop file p = p := by
  have hstarts : file.startsWith p text = false :=
    Bool.eq_false_iff.2 fun hstarts => h (List.isPrefixOf_iff_prefix.1 hstarts)
  rw [stop, File.skipText?, hstarts]
  rfl

/-- Without a symbol that comes next none is taken. -/
theorem stop_takeSymbol_of_forall_not_prefix
    (h : ∀ s ∈ Symbol.table, ¬s.chars <+: file.rest p) : takeSymbol.stop file p = p := by
  have hnone : Symbol.match? (file.cursor p).rest = none := Symbol.match?_eq_none_iff.2 h
  rw [stop, Cursor.takeSymbol, hnone]
  rfl

end Move

/-- The positions that a cursor has held, the last of them first.  It begins at the beginning of
the file, moves, and is put back to positions that it has held before. -/
inductive Trail (file : File) : List Position → Prop where
  | start : Trail file [⟨0, 0⟩]
  | move {p : Position} {held : List Position} (m : Move) (h : Trail file (p :: held))
    (hallowed : m.Allowed file p) : Trail file (m.stop file p :: p :: held)
  | putBack {q : Position} {held : List Position} (h : Trail file held) (hq : q ∈ held) :
    Trail file (q :: held)

namespace Trail

variable {file : File} {held : List Position}

/-- A cursor holds positions of the file only. -/
theorem holds (h : Trail file held) (hpos : 0 < file.lineCount) : ∀ p ∈ held, file.Holds p := by
  induction h with
  | start => exact List.forall_mem_singleton.2 (File.holds_lineStart hpos)
  | move m h hallowed ih =>
      rw [List.forall_mem_cons] at ih ⊢
      exact ⟨(m.onward ih.1 hallowed).holds, List.forall_mem_cons.2 ih⟩
  | putBack h hq ih => exact List.forall_mem_cons.2 ⟨ih _ hq, ih⟩

/-- However a cursor has been moved and put back, it stands on a line of the file and not behind
its end.  Wherever it is moved from there, it stays in place or goes forward, and it stays in
place if a text or a symbol that it is to pass is not there. -/
theorem inFile (name text : String) :
    let file := File.ofText name text
    ∀ p held, Trail file (p :: held) →
      p.line < file.lineCount ∧ p.column ≤ (file.lineAt p).length ∧
      (∀ m : Move, m.Allowed file p → p ≤ m.stop file p) ∧
      (∀ chars, ¬chars <+: file.rest p → (Move.skipText chars).stop file p = p) ∧
      ((∀ s ∈ Symbol.table, ¬s.chars <+: file.rest p) → Move.takeSymbol.stop file p = p) := by
  intro file p held h
  have hp : file.Holds p :=
    h.holds (File.numbered_ofText name text).pos p List.mem_cons_self
  exact ⟨hp.line_lt, hp.column_le, fun m hallowed => (m.onward hp hallowed).le,
    fun chars => Move.stop_skipText_of_not_prefix, Move.stop_takeSymbol_of_forall_not_prefix⟩

/-- Lines of which one has a directive of an unknown name and a string without an end. -/
def faultyLines : File := .ofText "a" "\n #x \"b\ny"

theorem inFile_faultyLines :
    ∃ held, Trail faultyLines (⟨1, 1⟩ :: ⟨2, 0⟩ :: held) ∧
      1 < faultyLines.lineCount ∧ 1 ≤ (faultyLines.lineAt ⟨1, 1⟩).length ∧
      (⟨1, 1⟩ : Position) ≤ (Move.readDirective .builtin).stop faultyLines ⟨1, 1⟩ ∧
      (Move.skipText ['#', '!']).stop faultyLines ⟨1, 1⟩ = ⟨1, 1⟩ := by
  have hline : Trail faultyLines [⟨1, 0⟩, ⟨0, 0⟩] := .move .nextLine .start trivial
  have hblank : Move.skipBlanks.stop faultyLines ⟨1, 0⟩ = ⟨1, 1⟩ := by decide +kernel
  have hhash : faultyLines.charAt ⟨1, 1⟩ = some '#' := by decide +kernel
  have hdirective : (Move.readDirective .builtin).stop faultyLines ⟨1, 1⟩ = ⟨1, 3⟩ := by
    decide +kernel
  have hquote : Move.skipTrivia.stop faultyLines ⟨1, 3⟩ = ⟨1, 4⟩ := by decide +kernel
  have hstring : Move.readToken.stop faultyLines ⟨1, 4⟩ = ⟨1, 6⟩ := by decide +kernel
  have hend : Move.step.stop faultyLines ⟨1, 6⟩ = ⟨2, 0⟩ := by decide +kernel
  have htrail := (((((hline.move .skipBlanks trivial).move (.readDirective .builtin)
    (by rwa [hblank])).move .skipTrivia trivial).move .readToken trivial).move .step trivial)
  rw [hblank, hdirective, hquote, hstring, hend] at htrail
  have hback := htrail.putBack (q := ⟨1, 1⟩) (by simp)
  obtain ⟨hcount, hlength, honward, htext, -⟩ := inFile "a" _ ⟨1, 1⟩ _ hback
  exact ⟨_, hback, hcount, hlength, honward (.readDirective .builtin) hhash,
    htext ['#', '!'] (by decide +kernel)⟩

end Trail
end Kiln
