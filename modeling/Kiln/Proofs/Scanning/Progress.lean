import Kiln.Proofs.Coverage.Tokens
import Kiln.Proofs.Reading.Loops
import Kiln.Proofs.Safety.Bounds
import Kiln.Proofs.Scanning.Faults

/-!
# Scanning makes progress

Passing trivia and reading a file are loops.  A turn of either leaves less of the file than there
was before, so one turn more than there are code points and line ends is enough for them to end.

Trivia is passed in turns over one blank, one line end or one comment (`File.triviaTurn`); a
turn of reading passes the trivia and reads the piece behind it (`File.readTurn`).
-/

namespace Kiln

theorem File.Forward.lt {file : File} {p q : Position} (h : file.Forward p q) : p < q := by
  rw [Position.lt_def]
  exact h.symm.imp And.left fun hsame => ⟨hsame.1.symm, hsame.2⟩

/-! ## Passing trivia -/

namespace File

variable {file : File} {p : Position}

/-- A turn of passing trivia: over a blank, from the end of a line to the next line, or over a
comment to the end of its line.  Passing ends where none of these is to be found. -/
def triviaTurn (file : File) (p : Position) : Position ⊕ Position :=
  match file.rest p with
  | [] =>
    match file.nextLine? p with
    | some next => .inl next
    | none => .inr p
  | c :: _ =>
    if isBlank c then .inl (p.right 1)
    else if file.startsWith p commentMark then .inl (file.lineEnd p.line)
    else .inr p

/-- What a turn that goes on has passed. -/
theorem triviaTurn_eq_inl {next : Position} (h : file.triviaTurn p = .inl next) :
    (file.rest p = [] ∧ p.line < file.lastIndex ∧ next = ⟨p.line + 1, 0⟩) ∨
      (∃ c more, file.rest p = c :: more ∧ isBlank c = true ∧ next = p.right 1) ∨
      (commentMark.isPrefixOf (file.rest p) = true ∧ next = file.lineEnd p.line) := by
  rw [triviaTurn] at h
  split at h
  · next hrest =>
      rw [nextLine?] at h
      by_cases hline : p.line < file.lastIndex
      · simp only [if_pos hline] at h
        cases h
        exact Or.inl ⟨hrest, hline, rfl⟩
      · simp only [if_neg hline] at h
        cases h
  · next c more hrest =>
      split at h
      · next hblank =>
          cases h
          exact Or.inr (Or.inl ⟨c, more, hrest, hblank, rfl⟩)
      · split at h
        · next hcomment =>
            cases h
            exact Or.inr (Or.inr ⟨hcomment, rfl⟩)
        · cases h

/-- Where a turn ends the passing. -/
theorem triviaTurn_eq_inr {stop : Position} (h : file.triviaTurn p = .inr stop) :
    stop = p ∧ ((file.rest p = [] ∧ ¬p.line < file.lastIndex) ∨
      ∃ c more, file.rest p = c :: more ∧ isBlank c = false ∧
        commentMark.isPrefixOf (file.rest p) = false) := by
  rw [triviaTurn] at h
  split at h
  · next hrest =>
      rw [nextLine?] at h
      by_cases hline : p.line < file.lastIndex
      · simp only [if_pos hline] at h
        cases h
      · simp only [if_neg hline] at h
        cases h
        exact ⟨rfl, Or.inl ⟨hrest, hline⟩⟩
  · next c more hrest =>
      split at h
      · cases h
      · next hblank =>
          split at h
          · cases h
          · next hcomment =>
              rw [Bool.not_eq_true] at hblank hcomment
              cases h
              exact ⟨rfl, Or.inr ⟨c, more, hrest, hblank, hcomment⟩⟩

theorem lt_length_of_comment (h : commentMark.isPrefixOf (file.rest p) = true) :
    p.column < (file.lineAt p).length := by
  have hlength := (List.isPrefixOf_iff_prefix.1 h).length_le
  rw [length_rest, commentMark] at hlength
  simp only [List.length_cons, List.length_nil] at hlength
  omega

/-- A turn that goes on moves forward. -/
theorem forward_of_triviaTurn {next : Position} (h : file.triviaTurn p = .inl next) :
    file.Forward p next := by
  rcases triviaTurn_eq_inl h with ⟨-, hline, rfl⟩ | ⟨c, more, -, -, rfl⟩ | ⟨hcomment, rfl⟩
  · exact Or.inr ⟨Nat.lt_succ_self _, hline⟩
  · exact Or.inl ⟨rfl, Nat.lt_succ_self _⟩
  · exact Or.inl ⟨rfl, lt_length_of_comment hcomment⟩

/-- A turn that goes on leaves less of the file. -/
theorem left_lt_of_triviaTurn {next : Position} (h : file.triviaTurn p = .inl next) :
    file.left next < file.left p := by
  have hforward := forward_of_triviaTurn h
  rcases triviaTurn_eq_inl h with ⟨-, hline, rfl⟩ | ⟨c, more, hrest, -, -⟩ | ⟨hcomment, -⟩
  · exact left_lt_of_line_lt (Nat.lt_succ_self _) hline
  · exact left_lt_of_advance (atLineEnd_of_rest_cons hrest) hforward
  · refine left_lt_of_advance ?_ hforward
    rw [atLineEnd, decide_eq_false_iff_not, Nat.not_le]
    exact lt_length_of_comment hcomment

theorem holds_of_triviaTurn {next : Position} (hp : file.Holds p)
    (h : file.triviaTurn p = .inl next) : file.Holds next := by
  rcases triviaTurn_eq_inl h with ⟨-, hline, rfl⟩ | ⟨c, more, hrest, -, rfl⟩ | ⟨-, rfl⟩
  · exact holds_lineStart (lt_lastIndex_iff.1 hline)
  · exact hp.right_one (atLineEnd_of_rest_cons hrest)
  · exact holds_lineEnd hp.line_lt

/-- A turn that goes on does not change where the passing ends. -/
theorem skipTrivia_of_triviaTurn {next : Position} (h : file.triviaTurn p = .inl next) :
    (file.cursor next).skipTrivia = (file.cursor p).skipTrivia := by
  rcases triviaTurn_eq_inl h with
    ⟨hrest, hline, rfl⟩ | ⟨c, more, hrest, hblank, rfl⟩ | ⟨hcomment, rfl⟩
  · rw [skipTrivia_below (by simp [hrest]) (Or.inl hrest), if_pos hline]
  · exact (skipTrivia_of_blank hrest hblank).symm
  · -- from the end of its line the line below is reached as from the comment
    have hend : file.rest (file.lineEnd p.line) = [] := file.rest_lineEnd p.line
    rw [skipTrivia_below (by simp [hend]) (Or.inl hend),
      skipTrivia_below (not_isBlank_of_commentMark hcomment) (Or.inr hcomment)]
    rfl

/-- A position from which no further line can be reached is the end of the file, if nothing is
left of its line. -/
theorem Holds.eq_endPosition (hp : file.Holds p) (hrest : file.rest p = [])
    (hline : ¬p.line < file.lastIndex) : p = file.endPosition := by
  have hlast : p.line = file.lastIndex := by
    have hlt := hp.line_lt
    simp only [lastIndex, lineCount] at hline hlt ⊢
    omega
  have hcolumn : p.column = (file.lineAt p).length := by
    have hlength := file.length_rest p
    rw [hrest, List.length_nil] at hlength
    have hle := hp.column_le
    omega
  rw [endPosition, lineEnd, ← hlast]
  exact congrArg (Position.mk p.line) hcolumn

/-- Where a turn ends the passing nothing is skipped. -/
theorem skipTrivia_of_triviaTurn_inr {stop : Position} (hp : file.Holds p)
    (h : file.triviaTurn p = .inr stop) : stop = (file.cursor p).skipTrivia.position := by
  obtain ⟨rfl, ⟨hrest, hline⟩ | ⟨c, more, hrest, hblank, hcomment⟩⟩ := triviaTurn_eq_inr h
  · rw [skipTrivia_below (by simp [hrest]) (Or.inl hrest), if_neg hline]
    exact hp.eq_endPosition hrest hline
  · rw [skipTrivia_of_piece hrest hblank hcomment]
    rfl

/-- Passing trivia turn by turn ends, and ends where trivia is skipped to. -/
theorem runFor_triviaTurn (hp : file.Holds p) {turns : Nat} (hturns : file.left p < turns) :
    runFor file.triviaTurn turns p = some (file.cursor p).skipTrivia.position :=
  runFor_eq_some file.Holds file.left (fun p => (file.cursor p).skipTrivia.position)
    (fun _ _ hp h => ⟨holds_of_triviaTurn hp h, left_lt_of_triviaTurn h,
      congrArg Cursor.position (skipTrivia_of_triviaTurn h)⟩)
    (fun _ _ => skipTrivia_of_triviaTurn_inr) hp hturns

end File

theorem File.Holds.le_endPosition {file : File} {p : Position} (hp : file.Holds p) :
    p ≤ file.endPosition := by
  obtain ⟨hline, hcolumn⟩ := hp
  obtain ⟨line, column⟩ := p
  rcases Nat.lt_or_ge line file.lastIndex with hlt | hge
  · exact Or.inl hlt
  · have hlast : line = file.lastIndex := by
      simp only [File.lastIndex, File.lineCount] at hline hge ⊢
      omega
    subst hlast
    exact Or.inr ⟨rfl, hcolumn⟩

namespace Cursor

variable {file : File} {c : Cursor file}

/-- On a character that is neither a blank nor the first of a comment. -/
def AtPiece (c : Cursor file) : Prop :=
  ∃ ch, file.charAt c.position = some ch ∧ isBlank ch = false ∧
    file.startsWith c.position commentMark = false

/-- Skipping trivia ends at the end of the file or at a piece. -/
theorem skipTrivia_ends (c : Cursor file) :
    c.skipTrivia.position = file.endPosition ∨ c.skipTrivia.AtPiece := by
  rcases File.skipTrivia_cases c with hend | ⟨hline, -⟩
  · exact Or.inl hend
  · exact Or.inr (skipTrivia_stops (by rw [atEnd, hline, Bool.false_and]))

/-- Nothing is skipped where skipping has ended. -/
theorem skipTrivia_skipTrivia (c : Cursor file) : c.skipTrivia.skipTrivia = c.skipTrivia := by
  have hcursor : c.skipTrivia = file.cursor c.skipTrivia.position := ext rfl
  rcases skipTrivia_ends c with hend | ⟨ch, hch, hblank, hcomment⟩
  · have hrest := file.rest_lineEnd file.lastIndex
    have hlast : ¬(file.lineEnd file.lastIndex).line < file.lastIndex := Nat.lt_irrefl _
    rw [hcursor, hend, File.endPosition, File.skipTrivia_below (by simp [hrest]) (Or.inl hrest),
      if_neg hlast]
    rfl
  · rw [hcursor]
    exact File.skipTrivia_of_piece (File.rest_eq_cons hch) hblank hcomment

/-- How trivia is skipped at a cursor. -/
structure SkipsTrivia (c : Cursor file) : Prop where
  /-- Turn by turn, the skipping ends. -/
  ends : ∀ turns, file.left c.position < turns →
    runFor file.triviaTurn turns c.position = some c.skipTrivia.position
  le : c.position ≤ c.skipTrivia.position
  /-- What is passed is a blank or stands in a comment. -/
  passes : ∀ x ch, c.position ≤ x → x < c.skipTrivia.position → file.charAt x = some ch →
    isBlank ch = true ∨ ∃ start : Position, start.line = x.line ∧ c.position ≤ start ∧ start ≤ x ∧
      file.startsWith start commentMark = true
  stops : c.skipTrivia.position = file.endPosition ∨ c.skipTrivia.AtPiece
  again : c.skipTrivia.skipTrivia = c.skipTrivia

/-- From every position of the file trivia is skipped. -/
theorem skipsTrivia (hc : file.Holds c.position) : c.SkipsTrivia where
  ends turns hturns := by
    have hcursor : file.cursor c.position = c := ext rfl
    rw [File.runFor_triviaTurn hc hturns, hcursor]
  le := by
    cases hend : c.skipTrivia.atEnd with
    | false => exact le_skipTrivia hend
    | true =>
        rcases File.skipTrivia_cases c with h | ⟨hline, -⟩
        · exact h ▸ hc.le_endPosition
        · rw [atEnd, hline] at hend
          cases hend
  passes x ch hle hlt hch := by
    have hpassed : x < c.passed := by
      cases hend : c.skipTrivia.atEnd with
      | true => exact passed_of_atEnd hend ▸ File.lt_bottom hch
      | false => exact passed_of_not_atEnd hend ▸ hlt
    have haccounted : Accounted file [] c.position c.passed :=
      accounted_passed (List.forall_mem_nil _) hc.line_lt
    rcases haccounted.cases x ch hle hpassed hch with ⟨r, hr, -⟩ | hblank | ⟨-, start, h⟩
    · -- there is no stretch that could cover the character
      cases hr
    · exact Or.inl hblank
    · exact Or.inr ⟨start, h.1, h.2.1, h.2.2.1, h.2.2.2.1⟩
  stops := skipTrivia_ends c
  again := skipTrivia_skipTrivia c

end Cursor

/-! ## Reading a file -/

namespace File

variable {α : Type} {file : File} {readAt : Cursor file → Found α}

/-- A turn of reading: trivia is skipped, and a piece is read and put behind those read so
far.  Reading ends at the end of the file and when a piece cannot be read. -/
def readTurn (readAt : Cursor file → Found α) (s : Cursor file × List α) :
    (Cursor file × List α) ⊕ Except Diagnostic (List α) :=
  let c := s.1.skipTrivia
  if c.atEnd then .inr (.ok s.2)
  else
    match (readAt c).outcome with
    | .ok a => .inl (c.moveTo (readAt c).stop, s.2 ++ [a])
    | .error d => .inr (.error d)

theorem readTurn_eq_inl {c next : Cursor file} {done as : List α}
    (h : readTurn readAt (c, done) = .inl (next, as)) :
    c.skipTrivia.atEnd = false ∧ ∃ a, (readAt c.skipTrivia).outcome = .ok a ∧
      next = file.cursor (readAt c.skipTrivia).stop ∧ as = done ++ [a] := by
  simp only [readTurn] at h
  split at h
  · cases h
  · next hend =>
      split at h
      · next a ha =>
          rw [Bool.not_eq_true] at hend
          cases h
          exact ⟨hend, a, ha, Cursor.moveTo_eq _ _, rfl⟩
      · cases h

theorem readTurn_eq_inr {c : Cursor file} {done : List α} {result : Except Diagnostic (List α)}
    (h : readTurn readAt (c, done) = .inr result) :
    (c.skipTrivia.atEnd = true ∧ result = .ok done) ∨
      (c.skipTrivia.atEnd = false ∧ ∃ d, (readAt c.skipTrivia).outcome = .error d ∧
        result = .error d) := by
  simp only [readTurn] at h
  split at h
  · next hend =>
      cases h
      exact Or.inl ⟨hend, rfl⟩
  · next hend =>
      split at h
      · cases h
      · next d hd =>
          rw [Bool.not_eq_true] at hend
          cases h
          exact Or.inr ⟨hend, d, hd, rfl⟩

/-- Reading turn by turn ends, and gives the pieces of the file behind those read before. -/
theorem runFor_readTurn (advances : file.Advances readAt) {c : Cursor file} {done : List α}
    {turns : Nat} (hturns : file.left c.position < turns) :
    runFor (readTurn readAt) turns (c, done) =
      some ((file.readAllFrom readAt advances c).map (done ++ ·)) := by
  refine runFor_eq_some (fun _ => True) (fun s : Cursor file × List α => file.left s.1.position)
    (fun s => (file.readAllFrom readAt advances s.1).map (s.2 ++ ·)) ?_ ?_ trivial ?_
  · rintro ⟨c, done⟩ ⟨next, as⟩ - h
    obtain ⟨hend, a, ha, rfl, rfl⟩ := readTurn_eq_inl h
    refine ⟨trivial, left_lt_of_forward hend fun hline => advances _ a hline ha, ?_⟩
    dsimp only
    rw [readAllFrom_of_not_atEnd hend, ha]
    cases file.readAllFrom readAt advances (file.cursor (readAt c.skipTrivia).stop) with
    | error d => rfl
    | ok behind => exact congrArg Except.ok (List.append_assoc done [a] behind)
  · rintro ⟨c, done⟩ result - h
    dsimp only
    rcases readTurn_eq_inr h with ⟨hend, rfl⟩ | ⟨hend, d, hd, rfl⟩
    · rw [readAllFrom_of_atEnd hend]
      exact congrArg Except.ok (List.append_nil done).symm
    · rw [readAllFrom_of_not_atEnd hend, hd]
      rfl
  · exact hturns

/-- The pieces of a file come out of reading it turn by turn. -/
theorem runFor_readAll (advances : file.Advances readAt) {turns : Nat}
    (hturns : file.left ⟨0, 0⟩ < turns) :
    runFor (readTurn readAt) turns (file.cursor ⟨0, 0⟩, []) =
      some (file.readAll readAt advances) := by
  rw [runFor_readTurn (c := file.cursor ⟨0, 0⟩) advances hturns, readAll]
  cases file.readAllFrom readAt advances (file.cursor ⟨0, 0⟩) <;> rfl

/-! ## Progress -/

/-- From every position of a file trivia is skipped in finitely many turns, up to the end of the
file or a piece.  A token or directive that is read ends behind its beginning, and so reading the
tokens or the items of a file ends, and never for want of input. -/
theorem scanning_progresses (registry : Registry) (file : File) :
    (∀ c : Cursor file, file.Holds c.position → c.SkipsTrivia) ∧
    (∀ (c : Cursor file) t, (file.tokenAt c).outcome = .ok t →
      c.position < (file.tokenAt c).stop) ∧
    (∀ p d, (file.directiveAt registry p).outcome = .ok d →
      p < (file.directiveAt registry p).stop) ∧
    (∀ turns, file.left ⟨0, 0⟩ < turns →
      runFor (readTurn file.tokenAt) turns (file.cursor ⟨0, 0⟩, []) = some file.tokens ∧
      runFor (readTurn (file.itemAt registry)) turns (file.cursor ⟨0, 0⟩, []) =
        some (file.items registry)) ∧
    ∀ d, file.tokens = .error d ∨ file.items registry = .error d →
      d.main.code ≠ some .unexpectedEnd := by
  refine ⟨fun c hc => c.skipsTrivia hc, fun c t ht => ?_, fun p d hd => ?_, fun turns h => ?_,
    fun d hd => ?_⟩
  · obtain ⟨kind, count, hpos, -, -, hstop⟩ := tokenAt_eq_ok ht
    rw [hstop]
    exact Or.inr ⟨rfl, Nat.lt_add_of_pos_right hpos⟩
  · exact (file.directiveAt_forward registry hd).lt
  · rw [tokens, items]
    exact ⟨runFor_readAll file.tokenAt_advances h, runFor_readAll (file.itemAt_advances registry) h⟩
  · rcases hd with hd | hd
    · exact (isOf_of_tokens_eq_error hd).code_ne (by decide)
    · exact (isOf_of_items_eq_error hd).code_ne (by decide)

/-- Behind an inclusion a comment and an empty line are passed, and behind the one token of the
file the comment at its end. -/
theorem scanning_progresses_lastComment :
    let file := ofText "a" "#include <b> // y\n\n  x // z"
    let c := file.cursor ⟨0, 13⟩
    let d := file.cursor ⟨2, 2⟩
    (∃ directive, (file.directiveAt .builtin ⟨0, 0⟩).outcome = .ok directive) ∧
      (⟨0, 0⟩ : Position) < (file.directiveAt .builtin ⟨0, 0⟩).stop ∧
      file.Holds c.position ∧ file.left c.position < 16 ∧
      runFor file.triviaTurn 16 c.position = some d.position ∧ c.skipTrivia = d ∧
      (∃ token, (file.tokenAt d).outcome = .ok token) ∧ d.position < (file.tokenAt d).stop ∧
      file.left ⟨0, 0⟩ < 29 ∧
      runFor (readTurn (file.itemAt .builtin)) 29 (file.cursor ⟨0, 0⟩, []) =
        some (file.items .builtin) := by
  intro file c d
  obtain ⟨hskips, htoken, hdirective, hreads, -⟩ := scanning_progresses .builtin file
  have hc : file.Holds c.position := ⟨by decide +kernel, by decide +kernel⟩
  have hleft : file.left c.position < 16 := by decide +kernel
  have hrun : runFor file.triviaTurn 16 c.position = some d.position := by decide +kernel
  have hstop := (hskips c hc).ends 16 hleft
  rw [hrun, Option.some_inj] at hstop
  have hsome : ∃ directive, (file.directiveAt .builtin ⟨0, 0⟩).outcome = .ok directive :=
    exists_ok_of_isOk (by decide +kernel)
  have hread : ∃ token, (file.tokenAt d).outcome = .ok token :=
    exists_ok_of_isOk (by decide +kernel)
  have hall : file.left ⟨0, 0⟩ < 29 := by decide +kernel
  exact ⟨hsome, hdirective ⟨0, 0⟩ _ hsome.choose_spec, hc, hleft, hrun, Cursor.ext hstop.symm,
    hread, htoken d _ hread.choose_spec, hall, (hreads 29 hall).2⟩

end File
end Kiln
