import Kiln.Proofs.Lexing.Texts

/-!
# Spacing between tokens

Tokens do not depend on what stands between them: the tokens of a file that are written
down again with other blanks and comments in the gaps are read as the same tokens, if a
blank follows each of them.  Behind the last token a comment may follow at once, except
behind a slash, which the beginning of the comment would take up.
-/

namespace Kiln

/-- Blanks, and comments that end in a line end. -/
inductive IsTrivia : List Char → Prop where
  | nil : IsTrivia []
  | blank {c : Char} {cs : List Char} (hc : isBlank c = true) (h : IsTrivia cs) :
    IsTrivia (c :: cs)
  | comment {text cs : List Char} {ending : Char} (htext : OneLine text)
    (hending : isLineBreak ending = true) (h : IsTrivia cs) :
    IsTrivia (commentMark ++ (text ++ ending :: cs))

/-- Blanks and comments at the end of a text, where a comment may lack a line end. -/
inductive IsLastTrivia : List Char → Prop where
  | closed {cs : List Char} (h : IsTrivia cs) : IsLastTrivia cs
  | comment {cs text : List Char} (h : IsTrivia cs) (htext : OneLine text) :
    IsLastTrivia (cs ++ (commentMark ++ text))

/-- The texts of tokens with gaps before, between and behind them. -/
def weave (gap : Nat → List Char) : List Token → List Char
  | [] => gap 0
  | t :: ts => gap 0 ++ (t.text.toList ++ weave (fun i => gap (i + 1)) ts)

/-- Gaps of blanks and comments around `count` tokens, the gap behind each token but the
last beginning with a blank. -/
structure IsSpacing (gap : Nat → List Char) (count : Nat) : Prop where
  trivia : ∀ i < count, IsTrivia (gap i)
  last : IsLastTrivia (gap count)
  between : ∀ i < count, 0 < i → ∃ c ∈ (gap i).head?, isBlank c = true

/-! ## Reading gaps -/

theorem isBlank_of_isLineBreak {c : Char} (h : isLineBreak c = true) : isBlank c = true := by
  rw [isLineBreak, Bool.or_eq_true, beq_iff_eq, beq_iff_eq] at h
  rcases h with rfl | rfl <;> decide

variable {gap : Nat → List Char} {cs : List Char} {t : Token} {ts : List Token}

/-- Blanks and comments hold no tokens. -/
theorem IsTrivia.textReads_append (h : IsTrivia cs) {more : List Char} (hmore : TextReads more ts) :
    TextReads (cs ++ more) ts := by
  induction h with
  | nil => exact hmore
  | blank hc h ih => exact .blank hc ih
  | @comment text cs ending htext hending h ih =>
      have hbehind : TextReads (ending :: (cs ++ more)) ts :=
        .blank (isBlank_of_isLineBreak hending) ih
      have hcomment := TextReads.comment htext (by simp [hending]) hbehind
      simpa using hcomment

theorem IsLastTrivia.textReads (h : IsLastTrivia cs) : TextReads cs [] := by
  cases h with
  | closed h => simpa using h.textReads_append .nil
  | @comment cs text h htext =>
      have hcomment : TextReads (commentMark ++ (text ++ [])) [] := .comment htext (by simp) .nil
      rw [List.append_nil] at hcomment
      exact h.textReads_append hcomment

/-- Blanks and comments begin with a character that ends a token. -/
theorem IsTrivia.separates_head (h : IsTrivia cs) : ∀ c ∈ cs.head?, Separates c := by
  rintro c hc
  cases h with
  | nil => cases hc
  | blank hblank h =>
      cases hc
      exact separates_of_isBlank hblank
  | comment htext hending h =>
      cases hc
      exact separates_slash

theorem IsLastTrivia.separates_head (h : IsLastTrivia cs) : ∀ c ∈ cs.head?, Separates c := by
  cases h with
  | closed h => exact h.separates_head
  | @comment cs text h htext =>
      intro c hc
      cases cs with
      | nil =>
          cases hc
          exact separates_slash
      | cons d cs => exact h.separates_head c hc

theorem IsTrivia.isPrefixOf_of_slash (h : IsTrivia cs) (hslash : cs.head? = some '/') :
    commentMark <+: cs := by
  cases h with
  | nil => cases hslash
  | blank hblank h =>
      cases hslash
      exact absurd hblank (by decide)
  | comment htext hending h => exact List.prefix_append _ _

/-- Between tokens only a comment begins with a slash. -/
theorem IsLastTrivia.isPrefixOf_of_slash (h : IsLastTrivia cs) (hslash : cs.head? = some '/') :
    commentMark <+: cs := by
  cases h with
  | closed h => exact h.isPrefixOf_of_slash hslash
  | @comment cs text h htext =>
      cases cs with
      | nil => exact List.prefix_append _ _
      | cons d cs => exact (h.isPrefixOf_of_slash hslash).trans (List.prefix_append _ _)

theorem IsSpacing.tail {count : Nat} (h : IsSpacing gap (count + 1)) :
    IsSpacing (fun i => gap (i + 1)) count :=
  ⟨fun i hi => h.trivia (i + 1) (Nat.succ_lt_succ hi), h.last,
    fun i hi _ => h.between (i + 1) (Nat.succ_lt_succ hi) (Nat.succ_pos i)⟩

/-- A text of lexemes with gaps holds the tokens that they spell. -/
theorem textReads_weave (hts : ∀ t ∈ ts, t.IsSpelled) (hgap : IsSpacing gap ts.length)
    (hslash : ∀ t ∈ ts.getLast?, t.text = "/" → ¬ commentMark <+: gap ts.length) :
    TextReads (weave gap ts) ts := by
  induction ts generalizing gap with
  | nil => exact hgap.last.textReads
  | cons t ts ih =>
      rw [List.forall_mem_cons] at hts
      have hbehind : TextReads (weave (fun i => gap (i + 1)) ts) ts := by
        refine ih hts.2 hgap.tail fun u hu => hslash u ?_
        rw [List.getLast?_cons, Option.mem_def.1 hu]
        rfl
      refine (hgap.trivia 0 (Nat.succ_pos _)).textReads_append ?_
      cases ts with
      | nil =>
          have hlast : IsLastTrivia (gap 1) := hgap.last
          refine .token hts.1 hlast.separates_head (fun htext hhead => ?_) hbehind
          exact hslash t rfl htext (hlast.isPrefixOf_of_slash hhead)
      | cons u ts =>
          obtain ⟨c, hc, hblank⟩ := hgap.between 1 (Nat.succ_lt_succ (Nat.succ_pos _)) Nat.one_pos
          obtain ⟨more, hmore⟩ := List.head?_eq_some_iff.1 hc
          have hhead : (weave (fun i => gap (i + 1)) (u :: ts)).head? = some c := by
            rw [weave, hmore]
            rfl
          refine .token hts.1 ?_ ?_ hbehind
          · rw [hhead]
            rintro d ⟨⟩
            exact separates_of_isBlank hblank
          · rintro - hslash
            rw [hhead] at hslash
            cases hslash
            exact absurd hblank (by decide)

/-- The tokens of a file, written down with whatever gaps of blanks and comments around
them, are read as the same tokens, unless a comment directly follows a slash at the end. -/
theorem File.tokens_weave {name text : String} {ts : List Token}
    (h : (ofText name text).tokens = .ok ts) {gap : Nat → List Char}
    (hgap : IsSpacing gap ts.length)
    (hslash : ∀ t ∈ ts.getLast?, t.text = "/" → ¬ commentMark <+: gap ts.length)
    (name' : String) :
    ∃ found, (ofText name' (String.ofList (weave gap ts))).tokens = .ok found ∧
      found.map Token.detach = ts.map Token.detach :=
  (textReads_weave (isSpelled_of_tokens h) hgap hslash).exists_tokens name'

/-- The slash as a token. -/
def slashToken : Token := .ofOperator .divide

theorem isSpelled_slashToken : slashToken.IsSpelled := isLexeme_operator .divide

/-- A name and a slash directly behind it are read back with comments around and between them. -/
theorem File.tokens_weave_slash :
    ∃ t u gap, (ofText "a" "x/").tokens = .ok [t, u] ∧ IsSpacing gap 2 ∧
      ∃ found, (ofText "b" (String.ofList (weave gap [t, u]))).tokens = .ok found ∧
        found.map Token.detach = [t, u].map Token.detach := by
  have hname : (Token.ofText .identifier "x").IsSpelled := ⟨rfl, by decide⟩
  have hreads : TextReads (['x'] ++ (['/'] ++ [])) [.ofText .identifier "x", slashToken] :=
    .token hname (by rintro c ⟨⟩; exact separates_slash) (by simp [Token.ofText])
      (.token isSpelled_slashToken (by simp) (by simp) .nil)
  obtain ⟨found, htokens, hfound⟩ := hreads.exists_tokens "a"
  obtain ⟨t, more, rfl, -, hmore⟩ := List.map_eq_cons_iff.1 hfound
  obtain ⟨u, rfl, -⟩ := List.map_eq_singleton_iff.1 hmore
  let gap : Nat → List Char
    | 0 => "// c\n".toList
    | 1 => " // d\n".toList
    | _ => " // e".toList
  have hblank : isBlank ' ' = true := by decide
  have hbreak : isLineBreak '\n' = true := by decide
  have hgap : IsSpacing gap 2 := by
    refine ⟨fun i hi => ?_, ?_, fun i hi hpos => ?_⟩
    · rcases Nat.le_one_iff_eq_zero_or_eq_one.1 (Nat.le_of_lt_succ hi) with rfl | rfl
      · exact .comment (show OneLine " c".toList by decide) hbreak .nil
      · exact .blank hblank (.comment (show OneLine " d".toList by decide) hbreak .nil)
    · exact .comment (.blank hblank .nil) (show OneLine " e".toList by decide)
    · have hone : i = 1 := by omega
      subst hone
      exact ⟨' ', rfl, hblank⟩
  refine ⟨t, u, gap, htokens, hgap, tokens_weave htokens hgap ?_ "b"⟩
  rintro v - - hprefix
  have hbegin : commentMark <+: " // e".toList := hprefix
  exact absurd (List.isPrefixOf_iff_prefix.2 hbegin) (by decide)

theorem exists_tokens_slash (name : String) :
    ∃ t, (File.ofText name "/").tokens = .ok [t] ∧ t.detach = slashToken := by
  have hreads : TextReads (['/'] ++ []) [slashToken] :=
    .token isSpelled_slashToken (by simp) (by simp) .nil
  obtain ⟨found, htokens, hfound⟩ := hreads.exists_tokens name
  obtain ⟨t, rfl, ht⟩ := List.map_eq_singleton_iff.1 hfound
  exact ⟨t, htokens, ht⟩

/-- Without a blank a comment takes up the slash before it: the gaps alone do not make
sure that the tokens are read back. -/
theorem File.not_tokens_weave_of_comment :
    ¬ ∀ (name text : String) (ts : List Token) (gap : Nat → List Char) (name' : String),
      (ofText name text).tokens = .ok ts → IsSpacing gap ts.length →
        ∃ found, (ofText name' (String.ofList (weave gap ts))).tokens = .ok found ∧
          found.map Token.detach = ts.map Token.detach := by
  intro hall
  obtain ⟨t, htokens, ht⟩ := exists_tokens_slash "a"
  have htext : t.text = "/" := congrArg Token.text ht
  let gap : Nat → List Char := fun i => if i = 0 then [] else commentMark
  have hgap : IsSpacing gap 1 := by
    refine ⟨fun i hi => ?_, .comment .nil oneLine_nil, fun i hi hpos => by omega⟩
    have hzero : i = 0 := by omega
    subst hzero
    exact .nil
  have hweave : weave gap [t] = commentMark ++ (['/'] ++ []) := by
    rw [weave, weave, htext]
    rfl
  obtain ⟨found, hfound, hdetach⟩ := hall "a" "/" [t] gap "b" htokens hgap
  have hcomment : TextReads (weave gap [t]) [] := by
    rw [hweave]
    exact .comment (by decide) (by simp) .nil
  obtain ⟨none, hnone, hempty⟩ := hcomment.exists_tokens "b"
  rw [hfound] at hnone
  rw [Except.ok.inj hnone, hempty] at hdetach
  cases hdetach

end Kiln
