import Kiln.Proofs.Lexing.Texts
import Kiln.Proofs.Relocation.Parts

/-!
# Lexing line by line

No token reaches over a line end, and blanks and comments end with their line at the
latest.  So the tokens of a file are those of its lines, each read as a file of its own
and put in its place; and a file has no tokens because of the first of its lines that has
none.
-/

namespace Kiln

namespace File

/-! ## Tokens of parts -/

namespace PartOf

variable {part whole : File} {offset : Nat} {f : Line → Line} (h : part.PartOf whole offset f)

include h

theorem report_lexicalFault {p : Position} (hp : p.line < part.lineCount) (distance : Nat)
    (fault : LexicalFault) :
    fault.report whole (p.down offset) distance = (fault.report part p distance).mapLines f := by
  have hplace := h.charExcerpt (p := p.right distance) hp
  rw [Position.right_down] at hplace
  unfold LexicalFault.report
  rw [hplace, h.charExcerpt hp]
  cases fault <;> rfl

/-- A token of a part is a token of the whole. -/
theorem transportsPieces_tokenAt :
    TransportsPieces part whole offset part.tokenAt whole.tokenAt (Token.mapLines f) := by
  intro p t hp ht
  have hrest : (whole.cursor (p.down offset)).rest = (part.cursor p).rest := h.rest hp
  have hstretch := h.stretch hp
  unfold tokenAt at ht ⊢
  rw [hrest]
  generalize readToken (part.cursor p).rest = reading at ht ⊢
  obtain ⟨length, outcome⟩ := reading
  cases outcome with
  | error fault => cases ht
  | ok kind =>
      cases ht
      refine ⟨congrArg Except.ok ((Token.mk.injEq ..).mpr ⟨rfl, ?_, hstretch length⟩), rfl⟩
      rw [Cursor.textAhead, hrest]
      rfl

/-- Where a part has no token the whole has none. -/
theorem transportsFaults_tokenAt :
    TransportsFaults part whole offset part.tokenAt whole.tokenAt (Diagnostic.mapLines f) := by
  intro p d hp hd
  have hrest : (whole.cursor (p.down offset)).rest = (part.cursor p).rest := h.rest hp
  unfold tokenAt at hd ⊢
  rw [hrest]
  generalize readToken (part.cursor p).rest = reading at hd ⊢
  obtain ⟨length, outcome⟩ := reading
  cases outcome with
  | error fault =>
      cases hd
      exact congrArg Except.error (h.report_lexicalFault hp fault.2 fault.1)
  | ok kind => cases hd

end PartOf

/-! ## Lines as files -/

/-- A line as a file of its own. -/
def lineFile (file : File) (index : Nat) : File :=
  ofText file.name (String.ofList (file.line index).chars.toList)

theorem splitLines_of_oneLine {cs : List Char} (h : OneLine cs) :
    splitLines cs = [{ index := 0, chars := cs.toArray, ending := .unterminated }] := by
  have hsplit := splitLinesAfter_append h 0 #[] []
  rw [List.append_nil] at hsplit
  rw [splitLines, hsplit]
  simp [splitLinesAfter]

section Lines

variable {file : File} (honeLine : ∀ index, OneLine (file.line index).chars.toList)
  {index : Nat}

include honeLine

theorem lines_lineFile (index : Nat) :
    (file.lineFile index).lines =
      #[{ index := 0, chars := (file.line index).chars, ending := .unterminated }] := by
  rw [lineFile, ofText, String.toList_ofList, splitLines_of_oneLine (honeLine index)]

theorem lineCount_lineFile (index : Nat) : (file.lineFile index).lineCount = 1 := by
  rw [lineCount, lines_lineFile honeLine]
  rfl

/-- A line is a part of its file. -/
theorem partOf_lineFile (hindex : index < file.lineCount) :
    (file.lineFile index).PartOf file index fun _ => file.line index := by
  have hcount := lineCount_lineFile honeLine index
  refine ⟨rfl, ?_, ?_, ?_⟩
  · intro i hi
    have hzero : i = 0 := by omega
    rw [hzero, Nat.zero_add]
  · intro i hi
    have hzero : i = 0 := by omega
    rw [hzero, line, line, lines_lineFile honeLine]
    rfl
  · rw [hcount]
    exact hindex

/-- Behind the tokens of a line stand those of the lines below. -/
theorem tokensOfLine_ok {ts : List Token} (hindex : index < file.lineCount)
    (hts : (file.lineFile index).tokens = .ok ts) :
    piecesOfLine file.tokenAt_advances index =
      (piecesOfLine file.tokenAt_advances (index + 1)).map
        (ts.map (Token.mapLines fun _ => file.line index) ++ ·) := by
  have hpart := partOf_lineFile honeLine hindex
  have hcount := lineCount_lineFile honeLine index
  have hread : piecesOfLine file.tokenAt_advances index = _ :=
    hpart.piecesOfLine_ok hpart.transportsPieces_tokenAt (by omega) hts
  rwa [hcount, Nat.add_comm 1] at hread

/-- Where a line has no tokens nothing is read from it on. -/
theorem tokensOfLine_error {d : Diagnostic} (hindex : index < file.lineCount)
    (hd : (file.lineFile index).tokens = .error d) :
    piecesOfLine file.tokenAt_advances index =
      .error (d.mapLines fun _ => file.line index) := by
  have hpart := partOf_lineFile honeLine hindex
  have hcount := lineCount_lineFile honeLine index
  exact hpart.piecesOfLine_error hpart.transportsPieces_tokenAt hpart.transportsFaults_tokenAt
    (by omega) hd

/-- Where all lines from one on have tokens these are read one line after the other. -/
theorem tokensOfLines_ok {tokensOf : Nat → List Token} {count : Nat}
    (hcount : index + count = file.lineCount)
    (h : ∀ i < file.lineCount, (file.lineFile i).tokens = .ok (tokensOf i)) :
    piecesOfLine file.tokenAt_advances index =
      .ok ((List.range' index count).flatMap fun i =>
        (tokensOf i).map (Token.mapLines fun _ => file.line i)) := by
  induction count generalizing index with
  | zero => rw [piecesOfLine, if_neg (by omega)]; rfl
  | succ count ih =>
      have hindex : index < file.lineCount := by omega
      rw [tokensOfLine_ok honeLine hindex (h index hindex), ih (by omega), List.range'_succ,
        List.flatMap_cons]
      rfl

/-- Where the lines up to a faulty one have tokens its fault is reported. -/
theorem tokensOfLines_error {count : Nat} {d : Diagnostic}
    (hindex : index + count < file.lineCount)
    (h : ∀ i < index + count, ∃ ts, (file.lineFile i).tokens = .ok ts)
    (hd : (file.lineFile (index + count)).tokens = .error d) :
    piecesOfLine file.tokenAt_advances index =
      .error (d.mapLines fun _ => file.line (index + count)) := by
  induction count generalizing index with
  | zero => exact tokensOfLine_error honeLine hindex hd
  | succ count ih =>
      obtain ⟨ts, hts⟩ := h index (by omega)
      have hnext : index + (count + 1) = index + 1 + count := by omega
      rw [hnext] at hindex h hd ⊢
      rw [tokensOfLine_ok honeLine (by omega) hts, ih hindex h hd]
      rfl

end Lines

/-- The tokens of a text are those of its lines, each read as a file of the same name and
shown on its own line of the text; if a line cannot be read, the fault of the first such
line is reported there, whatever comes below. -/
theorem tokens_line_by_line (name text : String) :
    (∀ tokensOf : Nat → List Token,
      (∀ i < (ofText name text).lineCount,
        ((ofText name text).lineFile i).tokens = .ok (tokensOf i)) →
      (ofText name text).tokens =
        .ok ((List.range (ofText name text).lineCount).flatMap fun i =>
          (tokensOf i).map (Token.mapLines fun _ => (ofText name text).line i))) ∧
    ∀ i d, i < (ofText name text).lineCount →
      (∀ j < i, ∃ ts, ((ofText name text).lineFile j).tokens = .ok ts) →
      ((ofText name text).lineFile i).tokens = .error d →
      (ofText name text).tokens =
        .error (d.mapLines fun _ => (ofText name text).line i) := by
  have honeLine : ∀ index, OneLine ((ofText name text).line index).chars.toList := fun index =>
    oneLine_rest_ofText name text ⟨index, 0⟩
  have hpos : 0 < (ofText name text).lineCount := (numbered_ofText name text).pos
  generalize ofText name text = file at honeLine hpos ⊢
  have htokens : file.tokens = piecesOfLine file.tokenAt_advances 0 := by
    rw [piecesOfLine, if_pos hpos]
    rfl
  rw [htokens]
  constructor
  · intro tokensOf h
    rw [List.range_eq_range']
    exact tokensOfLines_ok honeLine (Nat.zero_add _) h
  · intro i d hi h hd
    rw [← Nat.zero_add i] at hi h hd ⊢
    exact tokensOfLines_error honeLine hi h hd

/-- A text of two lines, the second of which is a string that is not closed. -/
def openString : File := ofText "open" "a\r\n\"b"

theorem tokens_openString_first : ∃ ts, (openString.lineFile 0).tokens = .ok ts := by
  have hspelled : Token.IsSpelled (.ofText .identifier "a") := ⟨rfl, by decide⟩
  have hreads : TextReads ("a".toList ++ []) [.ofText .identifier "a"] :=
    .token hspelled (by simp) (by simp) .nil
  obtain ⟨ts, hts, -⟩ := hreads.exists_tokens "open"
  exact ⟨ts, hts⟩

theorem tokens_openString_second : ∃ d, (openString.lineFile 1).tokens = .error d := by
  have hrest : (openString.lineFile 1).rest ⟨0, 0⟩ = '"' :: ['b'] := rfl
  exact ⟨_, (piecesFrom_eq_error_iff hrest (by decide) (by rw [hrest]; decide)).2 (.inl rfl)⟩

theorem tokens_line_by_line_openString :
    openString.lineCount = 2 ∧ ∃ ts d, (openString.lineFile 0).tokens = .ok ts ∧
      (openString.lineFile 1).tokens = .error d ∧
        openString.tokens = .error (d.mapLines fun _ => openString.line 1) := by
  have hcount : openString.lineCount = 2 := rfl
  obtain ⟨ts, hts⟩ := tokens_openString_first
  obtain ⟨d, hd⟩ := tokens_openString_second
  refine ⟨hcount, ts, d, hts, hd, ?_⟩
  refine (tokens_line_by_line "open" "a\r\n\"b").2 1 d (by decide) (fun j hj => ?_) hd
  have hzero : j = 0 := by omega
  rw [hzero]
  exact ⟨ts, hts⟩

end File
end Kiln
