import Kiln.Proofs.Lexing.Spelling

/-!
# Reading texts across line ends

`Continues` says what text a file goes on with from a position, whatever lines it is cut
into.  `TextReads` says of a text, without regard to lines, which tokens it holds: blanks
and comments hold none, and a lexeme is the token it spells, unless what follows it could
be taken for a part of it.  From a position at which a file continues with such a text
these tokens are read.
-/

namespace Kiln

/-! ## What a file continues with -/

/-- A line end's first character. -/
def isLineBreak (c : Char) : Bool := c == '\n' || c == '\r'

theorem oneLine_iff {cs : List Char} : OneLine cs ↔ ∀ c ∈ cs, (!isLineBreak c) = true := by
  simp [OneLine, isLineBreak]

/-- The lines of a text begin with one of what was read so far and of all that comes up to
the first line end. -/
theorem head_splitLinesAfter {index : Nat} {run : Array Char} {cs : List Char} {line : Line}
    {lines : List Line} (h : splitLinesAfter index run cs = line :: lines) :
    line.chars.toList = run.toList ++ cs.takeWhile fun c => !isLineBreak c := by
  fun_induction splitLinesAfter index run cs with
  | case1 => cases h
  | case2 =>
      cases h
      simp
  | case3 =>
      cases h
      simp [isLineBreak]
  | case4 =>
      cases h
      simp [isLineBreak]
  | case5 =>
      cases h
      simp [isLineBreak]
  | case6 index run c cs hfeed _ hreturn ih =>
      have hfeed : c ≠ '\n' := by simpa using hfeed
      have hreturn : c ≠ '\r' := by simpa using hreturn
      rw [ih h]
      simp [isLineBreak, hfeed, hreturn]

/-- From a position on a file goes on with a text. -/
def File.Continues (file : File) (p : Position) (cs : List Char) : Prop :=
  ∃ run : Array Char, run.size = p.column ∧
    file.lines.toList.drop p.line = splitLinesAfter p.line run cs

namespace File

variable {file : File} {p : Position} {c : Char} {cs ds : List Char}

theorem continues_ofText (name : String) (cs : List Char) :
    (ofText name (String.ofList cs)).Continues ⟨0, 0⟩ cs :=
  ⟨#[], rfl, by rw [ofText, String.toList_ofList]; rfl⟩

namespace Continues

theorem rest (h : file.Continues p cs) (hline : p.line < file.lineCount) :
    file.rest p = cs.takeWhile fun c => !isLineBreak c := by
  obtain ⟨run, hrun, hlines⟩ := h
  rw [List.drop_eq_getElem_cons hline] at hlines
  have hchars := head_splitLinesAfter hlines.symm
  have hget : file.lineAt p = file.lines.toList[p.line] := by
    rw [lineAt, line, Array.getD_eq_getD_getElem?, Array.getElem?_eq_getElem hline]
    rfl
  rw [File.rest, hget, hchars, ← hrun, ← Array.length_toList, List.drop_left]

theorem line_lt (h : file.Continues p cs) (hcs : cs ≠ []) : p.line < file.lineCount := by
  obtain ⟨run, hrun, hlines⟩ := h
  have hne := splitLinesAfter_ne_nil cs p.line run (.inr (.inr hcs))
  rw [← hlines] at hne
  have hlength := List.length_pos_iff.2 hne
  rw [List.length_drop, Array.length_toList] at hlength
  exact Nat.lt_of_sub_pos hlength

theorem append (h : file.Continues p (ds ++ cs)) (hds : OneLine ds) :
    file.Continues (p.right ds.length) cs := by
  obtain ⟨run, hrun, hlines⟩ := h
  refine ⟨run ++ ds.toArray, by simp [Position.right, hrun], ?_⟩
  rw [splitLinesAfter_append hds] at hlines
  exact hlines

/-- Behind the line a file continues with the text behind the line end. -/
theorem below {line : Line} {index : Nat} (hindex : index = p.line)
    (h : file.lines.toList.drop p.line = line :: splitLinesAfter (index + 1) #[] cs) :
    file.Continues ⟨p.line + 1, 0⟩ cs := by
  subst hindex
  refine ⟨#[], rfl, ?_⟩
  rw [← List.drop_drop, h]
  rfl

theorem lineFeed (h : file.Continues p ('\n' :: cs)) : file.Continues ⟨p.line + 1, 0⟩ cs := by
  obtain ⟨run, hrun, hlines⟩ := h
  exact below rfl (hlines.trans (by rw [splitLinesAfter]))

theorem returnLineFeed (h : file.Continues p ('\r' :: '\n' :: cs)) :
    file.Continues ⟨p.line + 1, 0⟩ cs := by
  obtain ⟨run, hrun, hlines⟩ := h
  exact below rfl (hlines.trans (by rw [splitLinesAfter]))

theorem carriageReturn (h : file.Continues p ('\r' :: cs)) (hcs : cs.head? ≠ some '\n') :
    file.Continues ⟨p.line + 1, 0⟩ cs := by
  obtain ⟨run, hrun, hlines⟩ := h
  exact below rfl (hlines.trans (splitLinesAfter_return hcs p.line run))

/-- Nothing is left behind the end of the text. -/
theorem lineCount_le (h : file.Continues p []) : file.lineCount ≤ p.line + 1 := by
  obtain ⟨run, hrun, hlines⟩ := h
  have hlength := congrArg List.length hlines
  rw [List.length_drop, Array.length_toList, splitLinesAfter] at hlength
  have hle : file.lines.size - p.line ≤ 1 := by
    rw [hlength]
    split <;> simp
  rw [lineCount]
  omega

end Continues
end File

/-! ## Texts of tokens -/

/-- The tokens of a text, up to where they stand, its line ends being blanks like any
other. -/
inductive TextReads : List Char → List Token → Prop where
  | nil : TextReads [] []
  | blank {c : Char} {cs : List Char} {ts : List Token} (hc : isBlank c = true)
    (h : TextReads cs ts) : TextReads (c :: cs) ts
  | comment {text cs : List Char} {ts : List Token} (htext : OneLine text)
    (hcs : ∀ c ∈ cs.head?, isLineBreak c = true) (h : TextReads cs ts) :
    TextReads (commentMark ++ (text ++ cs)) ts
  | token {t : Token} {cs : List Char} {ts : List Token} (ht : t.IsSpelled)
    (hcs : ∀ c ∈ cs.head?, Separates c) (hslash : t.text = "/" → cs.head? ≠ some '/')
    (h : TextReads cs ts) : TextReads (t.text.toList ++ cs) (t :: ts)

/-- From a position some tokens are read, up to where they stand, if there is a line at
it, and none otherwise. -/
def File.ReadsTokens (file : File) (p : Position) (ts : List Token) : Prop :=
  ∃ found, found.map Token.detach = ts.map Token.detach ∧
    (if p.line < file.lineCount then piecesFrom file.tokenAt_advances p else .ok []) = .ok found

namespace File

variable {file : File} {p : Position} {ts : List Token}

theorem readsTokens_of_eq (hline : p.line < file.lineCount) {q : Position}
    (hp : piecesFrom file.tokenAt_advances p =
      if q.line < file.lineCount then piecesFrom file.tokenAt_advances q else .ok [])
    (h : file.ReadsTokens q ts) : file.ReadsTokens p ts := by
  obtain ⟨found, hfound, hq⟩ := h
  exact ⟨found, hfound, by rw [if_pos hline, hp, hq]⟩

/-- From the end of a line the tokens below are read. -/
theorem ReadsTokens.of_below (hline : p.line < file.lineCount) (hrest : file.rest p = [])
    (h : file.ReadsTokens ⟨p.line + 1, 0⟩ ts) : file.ReadsTokens p ts :=
  readsTokens_of_eq hline (piecesFrom_lineEnd hrest) h

/-- What is left of a line that goes on with a text that is cut off by a line end. -/
theorem Continues.rest_append {cs ds : List Char} (h : file.Continues p (ds ++ cs))
    (hds : OneLine ds) (hline : p.line < file.lineCount) :
    file.rest p = ds ++ file.rest (p.right ds.length) := by
  rw [h.rest hline, (h.append hds).rest hline, List.takeWhile_append_of_pos (oneLine_iff.1 hds)]

theorem head?_takeWhile_subset {α : Type} {accept : α → Bool} {as : List α} :
    ∀ a ∈ (as.takeWhile accept).head?, a ∈ as.head? := by
  cases as with
  | nil => simp
  | cons b as =>
      intro a ha
      rw [List.takeWhile_cons] at ha
      split at ha
      · exact ha
      · cases ha

end File

/-- Wherever a file continues with a text some tokens are read, up to places. -/
def ReadsAs (cs : List Char) (ts : List Token) : Prop :=
  ∀ (file : File) (p : Position), file.Continues p cs → file.ReadsTokens p ts

namespace ReadsAs

variable {c : Char} {cs text : List Char} {ts : List Token}

theorem nil : ReadsAs [] [] := by
  intro file p hp
  refine ⟨[], rfl, ?_⟩
  by_cases hline : p.line < file.lineCount
  · have hrest : file.rest p = [] := hp.rest hline
    rw [if_pos hline, File.piecesFrom_lineEnd hrest, File.piecesOfLine,
      if_neg (Nat.not_lt.2 hp.lineCount_le)]
  · rw [if_neg hline]

theorem blank (hblank : isBlank c = true) (hbreak : isLineBreak c = false) (h : ReadsAs cs ts) :
    ReadsAs (c :: cs) ts := by
  intro file p hp
  have hline := hp.line_lt (List.cons_ne_nil c cs)
  have honeLine : OneLine [c] := oneLine_iff.2 (List.forall_mem_singleton.2 (by simp [hbreak]))
  have hrest : file.rest p = [c] ++ file.rest (p.right 1) := hp.rest_append honeLine hline
  have hbehind : file.Continues (p.right 1) cs := hp.append honeLine
  refine File.readsTokens_of_eq hline ?_ (h file _ hbehind)
  rw [if_pos (show (p.right 1).line < file.lineCount from hline)]
  exact File.piecesFrom_blank hrest hblank

theorem lineFeed (h : ReadsAs cs ts) : ReadsAs ('\n' :: cs) ts := by
  intro file p hp
  have hline := hp.line_lt (List.cons_ne_nil _ cs)
  exact .of_below hline (hp.rest hline) (h file _ hp.lineFeed)

theorem returnLineFeed (h : ReadsAs cs ts) : ReadsAs ('\r' :: '\n' :: cs) ts := by
  intro file p hp
  have hline := hp.line_lt (List.cons_ne_nil _ _)
  exact .of_below hline (hp.rest hline) (h file _ hp.returnLineFeed)

theorem carriageReturn (hcs : cs.head? ≠ some '\n') (h : ReadsAs cs ts) :
    ReadsAs ('\r' :: cs) ts := by
  intro file p hp
  have hline := hp.line_lt (List.cons_ne_nil _ cs)
  exact .of_below hline (hp.rest hline) (h file _ (hp.carriageReturn hcs))

/-- A comment up to the end of its line leads to the same line below as this end does. -/
theorem comment (htext : OneLine text) (hcs : ∀ c ∈ cs.head?, isLineBreak c = true)
    (h : ReadsAs cs ts) : ReadsAs (commentMark ++ (text ++ cs)) ts := by
  intro file p hp
  have hline := hp.line_lt (by simp [commentMark])
  have honeLine : OneLine (commentMark ++ text) :=
    oneLine_append.2 ⟨by decide, htext⟩
  rw [← List.append_assoc] at hp
  have hend := hp.append honeLine
  have hrestEnd : file.rest (p.right (commentMark ++ text).length) = [] := by
    rw [hend.rest hline]
    cases cs with
    | nil => rfl
    | cons c cs => simp [hcs c rfl]
  have hcomment : commentMark.isPrefixOf (file.rest p) = true := by
    rw [hp.rest_append honeLine hline, List.isPrefixOf_iff_prefix, List.append_assoc]
    exact List.prefix_append _ _
  refine File.readsTokens_of_eq hline ?_ (h file _ hend)
  rw [if_pos (show (p.right _).line < file.lineCount from hline), File.piecesFrom_comment hcomment,
    File.piecesFrom_lineEnd hrestEnd]
  rfl

theorem token {t : Token} (ht : t.IsSpelled) (hcs : ∀ c ∈ cs.head?, Separates c)
    (hslash : t.text = "/" → cs.head? ≠ some '/') (h : ReadsAs cs ts) :
    ReadsAs (t.text.toList ++ cs) (t :: ts) := by
  intro file p hp
  obtain ⟨c, more, htext, hblank, -⟩ := ht.exists_cons
  have hline := hp.line_lt (by simp [htext])
  have hrest := hp.rest_append ht.oneLine hline
  have hbehind := hp.append ht.oneLine
  generalize hmore : file.rest (p.right t.text.toList.length) = behind at hrest
  have hsubset : ∀ d ∈ behind.head?, d ∈ cs.head? := by
    rw [← hmore, hbehind.rest hline]
    exact File.head?_takeWhile_subset
  have hseparate : ∀ d ∈ behind.head?, Separates d := fun d hd => hcs d (hsubset d hd)
  have hcomment : commentMark.isPrefixOf (file.rest p) = false := by
    rw [hrest]
    exact ht.not_comment hseparate fun heq hd => hslash heq (hsubset '/' hd)
  have hcons : file.rest p = c :: (more ++ behind) := by rw [hrest, htext, List.cons_append]
  obtain ⟨found, hfound, hpieces⟩ := h file _ hbehind
  rw [if_pos (show (p.right _).line < file.lineCount from hline)] at hpieces
  refine ⟨⟨t.kind, t.text, file.stretch p t.text.toList.length⟩ :: found, ?_, ?_⟩
  · rw [List.map_cons, List.map_cons, hfound]
    rfl
  · rw [if_pos hline, File.piecesFrom_piece hcons hblank hcomment,
      File.tokenAt_lexeme ht hseparate hrest]
    show (File.piecesFrom _ (p.right _)).map _ = _
    rw [hpieces]
    rfl

end ReadsAs

/-- The tokens of a text are read wherever a file continues with it. -/
theorem TextReads.readsAs {cs : List Char} {ts : List Token} (h : TextReads cs ts) :
    ReadsAs cs ts := by
  -- A line feed behind a carriage return belongs to the line end that this begins, so the
  -- text behind a line feed is looked at along with the text itself.
  suffices hboth : ReadsAs cs ts ∧ ∀ cs', cs = '\n' :: cs' → ReadsAs cs' ts from hboth.1
  induction h with
  | nil => exact ⟨.nil, fun _ h => by cases h⟩
  | @blank c cs ts hc h ih =>
      refine ⟨?_, fun cs' h => (List.cons.inj h).2 ▸ ih.1⟩
      by_cases hbreak : isLineBreak c = true
      · rw [isLineBreak, Bool.or_eq_true, beq_iff_eq, beq_iff_eq] at hbreak
        rcases hbreak with rfl | rfl
        · exact .lineFeed ih.1
        · by_cases hnext : cs.head? = some '\n'
          · obtain ⟨cs', rfl⟩ := List.head?_eq_some_iff.1 hnext
            exact .returnLineFeed (ih.2 cs' rfl)
          · exact .carriageReturn hnext ih.1
      · exact .blank hc (by simpa using hbreak) ih.1
  | @comment text cs ts htext hcs h ih =>
      exact ⟨.comment htext hcs ih.1, fun _ h => by cases h⟩
  | @token t cs ts ht hcs hslash h ih =>
      refine ⟨.token ht hcs hslash ih.1, fun cs' h => ?_⟩
      obtain ⟨c, more, htext, hblank, -⟩ := ht.exists_cons
      rw [htext, List.cons_append] at h
      rw [(List.cons.inj h).1] at hblank
      exact absurd hblank (by decide)

/-- The tokens of a text are the tokens of a file with this text. -/
theorem TextReads.exists_tokens {cs : List Char} {ts : List Token} (h : TextReads cs ts)
    (name : String) : ∃ found, (File.ofText name (String.ofList cs)).tokens = .ok found ∧
      found.map Token.detach = ts.map Token.detach := by
  obtain ⟨found, hfound, hpieces⟩ := h.readsAs _ _ (File.continues_ofText name cs)
  have hpos : 0 < (File.ofText name (String.ofList cs)).lineCount :=
    (File.numbered_ofText name _).pos
  rw [if_pos hpos] at hpieces
  exact ⟨found, hpieces, hfound⟩

end Kiln
