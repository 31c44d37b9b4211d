import Kiln.Proofs.Reading.Steps
import Kiln.Proofs.RoundTrip.Lines
import Mathlib.Data.List.TakeWhile

/-!
# Tokens are lexemes

Reading a token looks beyond its end only to see that it ends there: cut off behind the
token, the text is read as the same token.  So every token of a file is spelled by a
lexeme.
-/

namespace Kiln

/-! ## Reading what is cut off behind a token -/

theorem take_length_takeWhile {α : Type} (accept : α → Bool) (as : List α) :
    as.take (as.takeWhile accept).length = as.takeWhile accept :=
  (List.prefix_iff_eq_take.1 (List.takeWhile_prefix accept)).symm

theorem readWord_take (cs : List Char) : readWord (cs.take (readWord cs).length) = readWord cs := by
  simp only [readWord, Reading.token, take_length_takeWhile, List.takeWhile_idem]

theorem length_takeWhile_take {α : Type} (accept : α → Bool) (as : List α) (n : Nat) :
    ((as.take n).takeWhile accept).length = min n (as.takeWhile accept).length := by
  rw [← List.take_takeWhile, List.length_take]

theorem digitCount_take {cs : List Char} {n : Nat} (h : digitCount cs ≤ n) :
    digitCount (cs.take n) = digitCount cs := by
  rw [digitCount, length_takeWhile_take]
  exact Nat.min_eq_right h

theorem fractionLength_take {cs : List Char} {n : Nat} (h : fractionLength cs ≤ n) :
    fractionLength (cs.take n) = fractionLength cs := by
  cases cs with
  | nil => simp
  | cons c cs =>
      by_cases hc : c = '.'
      · subst hc
        rw [fractionLength] at h
        obtain ⟨n, rfl⟩ := Nat.exists_eq_add_of_le' (Nat.le_of_add_right_le h)
        rw [List.take_succ_cons, fractionLength, fractionLength, digitCount_take (by omega)]
      · cases n with
        | zero => simp [fractionLength, hc]
        | succ n => simp [fractionLength, hc]

theorem exponentMark?_take {cs : List Char} {n mark : Nat} (hmark : exponentMark? cs = some mark)
    (h : mark ≤ n) : exponentMark? (cs.take n) = some mark := by
  rcases cs with - | ⟨c, - | ⟨s, cs⟩⟩
  · cases hmark
  · have hpos : 0 < n := by
      simp only [exponentMark?] at hmark
      split at hmark <;> cases hmark
      exact h
    rwa [List.take_of_length_le hpos]
  · rcases n with - | - | n
    · simp only [exponentMark?] at hmark
      split at hmark
      · split at hmark <;> cases hmark <;> cases h
      · cases hmark
    · simp only [exponentMark?] at hmark ⊢
      split at hmark
      · next hletter =>
          split at hmark <;> cases hmark
          · omega
          · simp [hletter]
      · cases hmark
    · exact hmark

theorem hasHexPrefix_take {cs : List Char} {n : Nat} (h : 2 ≤ n) :
    hasHexPrefix (cs.take n) = hasHexPrefix cs := by
  obtain ⟨n, rfl⟩ := Nat.exists_eq_add_of_le' h
  rcases cs with - | ⟨c, - | ⟨d, cs⟩⟩
  · simp
  · simp
  · simp [hasHexPrefix, List.isPrefixOf_cons_cons]

theorem not_hasHexPrefix_take {cs : List Char} (n : Nat) (h : hasHexPrefix cs = false) :
    hasHexPrefix (cs.take n) = false := by
  by_cases hn : 2 ≤ n
  · rw [hasHexPrefix_take hn, h]
  · have hlength : ¬ 2 ≤ (cs.take n).length := by
      rw [List.length_take]
      omega
    exact Bool.eq_false_iff.2 (mt two_le_length_of_hasHexPrefix hlength)

/-- A number that ends ends where it is cut off. -/
theorem closeNumber_take {cs : List Char} {n : Nat} {form : NumberForm} {kind : Kind}
    (h : (closeNumber cs n form).outcome = .ok kind) :
    closeNumber (cs.take n) n form = closeNumber cs n form := by
  have hnone : (cs.take n)[n]? = none := by rw [List.getElem?_take, if_neg (Nat.lt_irrefl n)]
  unfold closeNumber at h ⊢
  rw [hnone]
  split at h
  · split at h
    · cases h
    · next hpart => simp [hpart]
  · rfl

theorem readHexadecimal_take {cs : List Char} {kind : Kind}
    (h : (readHexadecimal cs).outcome = .ok kind) :
    readHexadecimal (cs.take (readHexadecimal cs).length) = readHexadecimal cs := by
  unfold readHexadecimal at h ⊢
  dsimp only at h ⊢
  generalize hdigits : ((cs.drop 2).takeWhile isHexDigit).length = digits at h ⊢
  split at h
  · cases h
  · next hpos =>
      simp only [if_neg hpos, length_closeNumber]
      rw [List.drop_take, Nat.add_sub_cancel_left, length_takeWhile_take, hdigits, Nat.min_self,
        if_neg hpos, closeNumber_take h]

theorem readInteger_take {cs : List Char} {n : Nat} {kind : Kind} (hn : 0 < n)
    (h : (readInteger cs n).outcome = .ok kind) :
    readInteger (cs.take n) n = readInteger cs n := by
  have hhead : (cs.take n).head? = cs.head? := by
    rw [List.head?_take, if_neg (Nat.ne_of_gt hn)]
  unfold readInteger at h ⊢
  rw [hhead, List.take_take, Nat.min_self]
  split at h
  · next hoctal =>
      rw [if_pos hoctal, if_pos hoctal]
      split at h
      · cases h
      · exact closeNumber_take h
  · next hdecimal =>
      rw [if_neg hdecimal, if_neg hdecimal]
      exact closeNumber_take h

/-- How a number without the prefix of hexadecimal ones is read: by the lengths of its
digits before the point, its fraction, and its exponent if it has one. -/
theorem readNumber_of_not_hasHexPrefix {cs : List Char} {whole fraction : Nat}
    (hhex : hasHexPrefix cs = false) (hwhole : digitCount cs = whole)
    (hfraction : fractionLength (cs.drop whole) = fraction) :
    readNumber cs =
      match exponentMark? (cs.drop (whole + fraction)) with
      | some mark =>
        if digitCount (cs.drop (whole + fraction + mark)) = 0 then
          .stuck (whole + fraction + mark) .missingExponentDigits
        else
          closeNumber cs
            (whole + fraction + mark + digitCount (cs.drop (whole + fraction + mark))) .floating
      | none =>
        if whole + fraction = whole then readInteger cs whole
        else closeNumber cs (whole + fraction) .floating := by
  subst hwhole hfraction
  rw [readNumber]
  exact if_neg (by simp [hhex])

section Cut

variable {cs : List Char} {whole fraction : Nat} (hhex : hasHexPrefix cs = false)
  (hwhole : digitCount cs = whole) (hfraction : fractionLength (cs.drop whole) = fraction)

include hhex hwhole hfraction

/-- Cut off behind its fraction or later, a number has the same digits and fraction. -/
theorem mantissa_take {n : Nat} (hn : whole + fraction ≤ n) :
    hasHexPrefix (cs.take n) = false ∧ digitCount (cs.take n) = whole ∧
      fractionLength ((cs.take n).drop whole) = fraction := by
  refine ⟨not_hasHexPrefix_take n hhex, ?_, ?_⟩
  · rw [digitCount_take (by omega), hwhole]
  · rw [List.drop_take, fractionLength_take (by omega), hfraction]

theorem readNumber_take_of_exponent {mark : Nat} {kind : Kind}
    (hmark : exponentMark? (cs.drop (whole + fraction)) = some mark)
    (h : (readNumber cs).outcome = .ok kind) :
    readNumber (cs.take (readNumber cs).length) = readNumber cs := by
  generalize hdigits : digitCount (cs.drop (whole + fraction + mark)) = digits
  have hread := readNumber_of_not_hasHexPrefix hhex hwhole hfraction
  simp only [hmark, hdigits] at hread
  by_cases hzero : digits = 0
  · rw [hread, if_pos hzero] at h
    cases h
  · rw [if_neg hzero] at hread
    rw [hread] at h ⊢
    rw [length_closeNumber]
    obtain ⟨hhex', hwhole', hfraction'⟩ := mantissa_take hhex hwhole hfraction
      (show whole + fraction ≤ whole + fraction + mark + digits by omega)
    rw [readNumber_of_not_hasHexPrefix hhex' hwhole' hfraction', List.drop_take,
      exponentMark?_take hmark (by omega)]
    simp only
    rw [List.drop_take, digitCount_take (by omega), hdigits, if_neg hzero, closeNumber_take h]

theorem readNumber_take_of_not_exponent {kind : Kind}
    (hmark : exponentMark? (cs.drop (whole + fraction)) = none)
    (hpos : 0 < (readNumber cs).length) (h : (readNumber cs).outcome = .ok kind) :
    readNumber (cs.take (readNumber cs).length) = readNumber cs := by
  have hread := readNumber_of_not_hasHexPrefix hhex hwhole hfraction
  simp only [hmark] at hread
  have hlength : (readNumber cs).length = whole + fraction := by
    rw [hread]
    split
    · next hsame => rw [length_readInteger, hsame]
    · rw [length_closeNumber]
  obtain ⟨hhex', hwhole', hfraction'⟩ := mantissa_take hhex hwhole hfraction (Nat.le_refl _)
  rw [hlength, readNumber_of_not_hasHexPrefix hhex' hwhole' hfraction', List.drop_take,
    Nat.sub_self, List.take_zero, hread]
  rw [hread] at h
  simp only [exponentMark?]
  by_cases hsame : whole + fraction = whole
  · rw [if_pos hsame] at h
    rw [hlength, hsame] at hpos
    rw [if_pos hsame, if_pos hsame, hsame]
    exact readInteger_take hpos h
  · rw [if_neg hsame] at h
    rw [if_neg hsame, if_neg hsame]
    exact closeNumber_take h

end Cut

theorem readNumber_take {cs : List Char} {kind : Kind} (hpos : 0 < (readNumber cs).length)
    (h : (readNumber cs).outcome = .ok kind) :
    readNumber (cs.take (readNumber cs).length) = readNumber cs := by
  cases hhex : hasHexPrefix cs with
  | true =>
      have hread : readNumber cs = readHexadecimal cs := by rw [readNumber, if_pos hhex]
      have hlength : 2 ≤ (readHexadecimal cs).length := by
        unfold readHexadecimal
        dsimp only
        split
        · exact Nat.le_refl 2
        · rw [length_closeNumber]
          exact Nat.le_add_right 2 _
      rw [hread] at h ⊢
      rw [readNumber, hasHexPrefix_take hlength, if_pos hhex, readHexadecimal_take h]
  | false =>
      cases hmark : exponentMark? (cs.drop (digitCount cs + fractionLength (cs.drop (digitCount cs)))) with
      | some mark => exact readNumber_take_of_exponent hhex rfl rfl hmark h
      | none => exact readNumber_take_of_not_exponent hhex rfl rfl hmark hpos h

theorem stringTail?_take {cs : List Char} {count : Nat} (h : stringTail? cs = some count) :
    stringTail? (cs.take count) = some count := by
  induction hlen : cs.length using Nat.strongRecOn generalizing cs count with
  | ind n ih =>
      unfold stringTail? at h
      split at h
      · cases h
      · cases h
      · cases h
        simp [stringTail?]
      · rw [Option.map_eq_some_iff] at h
        obtain ⟨inner, hinner, rfl⟩ := h
        simp only [List.length_cons] at hlen
        simp [stringTail?, ih _ (by omega) hinner rfl]
      · next c cs hlone hquote hescape =>
          rw [Option.map_eq_some_iff] at h
          obtain ⟨inner, hinner, rfl⟩ := h
          simp only [List.length_cons] at hlen
          have htail := ih _ (by omega) hinner rfl
          have hnotQuote : c ≠ '"' := by
            rintro rfl
            exact hquote rfl
          have hnotEscape : c ≠ '\\' := by
            rintro rfl
            cases cs with
            | nil => exact hlone rfl rfl
            | cons c cs => exact hescape c cs rfl rfl
          rw [List.take_succ_cons, stringTail?_cons hnotQuote hnotEscape, htail]
          rfl

theorem readString_take {c : Char} {cs : List Char} {kind : Kind}
    (h : (readString (c :: cs)).outcome = .ok kind) :
    readString ((c :: cs).take (readString (c :: cs)).length) = readString (c :: cs) := by
  cases hcount : stringTail? cs with
  | none =>
      rw [readString, List.tail_cons, hcount] at h
      cases h
  | some count =>
      have hread : readString (c :: cs) = .token (1 + count) .string := by
        rw [readString, List.tail_cons, hcount]
      have hlength : (Reading.token (1 + count) .string).length = count + 1 := Nat.add_comm 1 count
      rw [hread, hlength, List.take_succ_cons, readString, List.tail_cons, stringTail?_take hcount]

theorem match?_chars : ∀ s ∈ Symbol.table, Symbol.match? s.chars = some s := by decide

/-- Cut off behind a symbol nothing else can be read than it. -/
theorem match?_take {cs : List Char} {s : Symbol} (h : Symbol.match? cs = some s) :
    Symbol.match? (cs.take s.chars.length) = some s := by
  have hfound := List.find?_some h
  rw [← List.prefix_iff_eq_take.1 (List.isPrefixOf_iff_prefix.1 hfound)]
  exact match?_chars s (Symbol.mem_table_of_match? h)

/-- Cut off behind the token that is read, a text is read alike. -/
theorem readToken_take {cs : List Char} {kind : Kind} (h : (readToken cs).outcome = .ok kind) :
    readToken (cs.take (readToken cs).length) = readToken cs := by
  have hpos := length_readToken_pos h
  cases cs with
  | nil => cases h
  | cons c cs =>
      -- The character that decides on the sort of token is not cut off.
      rcases readToken_cases h with hword | hnumber | hstring | ⟨s, hs, hsymbol⟩
      · rw [hword] at hpos ⊢
        have htake := readWord_take (c :: cs)
        rw [List.take_cons hpos] at htake ⊢
        rw [hword, htake]
      · rw [hnumber] at hpos h ⊢
        have htake := readNumber_take hpos h
        rw [List.take_cons hpos] at htake ⊢
        rw [hnumber, htake]
      · rw [hstring] at hpos h ⊢
        have htake := readString_take h
        rw [List.take_cons hpos] at htake ⊢
        rw [hstring, htake]
      · rw [hsymbol _ _ hs] at hpos ⊢
        have hlength : 0 < s.chars.length := hpos
        have htake := match?_take hs
        rw [List.take_cons hlength] at htake
        show readToken ((c :: cs).take s.chars.length) = _
        rw [List.take_cons hlength]
        exact hsymbol _ s htake

/-! ## Kinds with one spelling -/

/-- The spelling of a keyword, an operator or a mark. -/
def Kind.spelling? : Kind → Option (List Char)
  | .keyword k => some k.chars
  | .operator o => some o.chars
  | .punctuation p => some p.chars
  | _ => none

theorem spelling?_of_readWord {cs : List Char} {kind : Kind}
    (h : readWord cs = .token cs.length kind) : ∀ chars ∈ kind.spelling?, cs = chars := by
  have hword : cs.takeWhile isWordPart = cs :=
    (List.takeWhile_prefix isWordPart).eq_of_length (congrArg Reading.length h)
  have hkind := congrArg Reading.outcome h
  simp only [readWord, hword, Reading.token, Except.ok.injEq] at hkind
  subst hkind
  intro chars hchars
  split at hchars
  · next k hk =>
      have hfound := List.find?_some hk
      rw [← Option.mem_some.1 hchars]
      exact (beq_iff_eq.1 hfound).symm
  · cases hchars

/-- A number is of the kind of one of its forms. -/
theorem exists_form_of_readNumber {cs : List Char} {kind : Kind}
    (h : (readNumber cs).outcome = .ok kind) : ∃ form : NumberForm, kind = form.kind := by
  unfold readNumber at h
  dsimp only at h
  split at h
  · unfold readHexadecimal at h
    dsimp only at h
    split at h
    · cases h
    · exact ⟨_, kind_of_closeNumber h⟩
  · split at h
    · split at h
      · cases h
      · exact ⟨_, kind_of_closeNumber h⟩
    · split at h
      · unfold readInteger at h
        split at h
        · split at h
          · cases h
          · exact ⟨_, kind_of_closeNumber h⟩
        · exact ⟨_, kind_of_closeNumber h⟩
      · exact ⟨_, kind_of_closeNumber h⟩

theorem spelling?_form (form : NumberForm) : form.kind.spelling? = none := by
  cases form <;> rfl

/-- A text that is one token of a kind with one spelling is that spelling. -/
theorem spelling?_of_readToken {cs : List Char} {kind : Kind}
    (h : readToken cs = .token cs.length kind) : ∀ chars ∈ kind.spelling?, cs = chars := by
  have houtcome := congrArg Reading.outcome h
  cases cs with
  | nil => cases houtcome
  | cons c cs =>
      rcases readToken_cases houtcome with hword | hnumber | hstring | ⟨s, hs, hsymbol⟩
      · rw [hword] at h
        exact spelling?_of_readWord h
      · rw [hnumber] at houtcome
        obtain ⟨form, rfl⟩ := exists_form_of_readNumber houtcome
        simp [spelling?_form]
      · rw [hstring, readString] at houtcome
        split at houtcome <;> cases houtcome
        simp [Kind.spelling?]
      · have htable : ∀ s ∈ Symbol.table, s.kind.spelling? = some s.chars := by decide
        have hspelling := htable s (Symbol.mem_table_of_match? hs)
        have hfound := List.find?_some hs
        rw [hsymbol _ _ hs] at h
        have hsame := (List.isPrefixOf_iff_prefix.1 hfound).eq_of_length
          (congrArg Reading.length h)
        cases congrArg Reading.outcome h
        simp [hspelling, hsame]

/-! ## Lines without line ends -/

theorem oneLine_of_mem_splitLinesAfter {index : Nat} {run : Array Char} {cs : List Char}
    (hrun : OneLine run.toList) :
    ∀ line ∈ splitLinesAfter index run cs, OneLine line.chars.toList := by
  fun_induction splitLinesAfter index run cs with
  | case1 => exact List.forall_mem_nil _
  | case2 => exact List.forall_mem_singleton.2 hrun
  | case3 index run cs ih => exact List.forall_mem_cons.2 ⟨hrun, ih oneLine_nil⟩
  | case4 index run cs ih => exact List.forall_mem_cons.2 ⟨hrun, ih oneLine_nil⟩
  | case5 index run cs _ ih => exact List.forall_mem_cons.2 ⟨hrun, ih oneLine_nil⟩
  | case6 index run c cs hfeed _ hreturn ih =>
      apply ih
      rw [Array.toList_push, oneLine_append, oneLine_cons]
      exact ⟨hrun, ⟨by simpa using hfeed, by simpa using hreturn⟩, oneLine_nil⟩

namespace File

/-- No line of a text has a line end in it. -/
theorem oneLine_rest_ofText (name text : String) (p : Position) :
    OneLine ((ofText name text).rest p) := by
  have hline : OneLine ((ofText name text).lineAt p).chars.toList := by
    rw [lineAt, line, Array.getD_eq_getD_getElem?]
    cases hget : (ofText name text).lines[p.line]? with
    | none => exact oneLine_nil
    | some line =>
        have hmem := Array.mem_of_getElem? hget
        exact oneLine_of_mem_splitLinesAfter oneLine_nil line (List.mem_toArray.1 hmem)
  intro c hc
  exact hline c (List.mem_of_mem_drop hc)

/-! ## Tokens -/

/-- Where a lexeme stands at the end of its line or in front of a separator, a token is
read. -/
theorem tokenAt_lexeme {file : File} {p : Position} {kind : Kind} {text : String}
    {more : List Char} (h : IsLexeme kind text) (hmore : ∀ c ∈ more.head?, Separates c)
    (hrest : file.rest p = text.toList ++ more) :
    file.tokenAt (file.cursor p) =
      ⟨.ok ⟨kind, text, file.stretch p text.toList.length⟩, p.right text.toList.length⟩ := by
  have hread : readToken (file.cursor p).rest = .token text.toList.length kind := by
    show readToken (file.rest p) = _
    rw [hrest, h.readToken_append hmore]
  have htextAhead : (file.cursor p).textAhead text.toList.length = text := by
    show String.ofList ((file.rest p).take _) = text
    rw [hrest, List.take_left, String.ofList_toList]
  rw [tokenAt, hread]
  simp only [Reading.token, htextAhead]
  rfl

/-- The text of a token that is read is one token of its kind. -/
theorem readToken_text_of_tokenAt {file : File} {c : Cursor file} {t : Token}
    (h : (file.tokenAt c).outcome = .ok t) :
    readToken t.text.toList = .token t.text.toList.length t.kind := by
  have hle := length_readToken_le c.rest
  simp only [tokenAt] at h
  split at h
  · next kind hkind =>
      cases h
      rw [Cursor.textAhead, String.toList_ofList, readToken_take hkind, List.length_take,
        Nat.min_eq_left hle]
      exact (Reading.mk.injEq ..).mpr ⟨rfl, hkind⟩
  · cases h

/-- A token that is read from a line is spelled by a lexeme. -/
theorem isSpelled_of_tokenAt {file : File} {c : Cursor file} {t : Token}
    (honeLine : OneLine (file.rest c.position)) (h : (file.tokenAt c).outcome = .ok t) :
    t.IsSpelled := by
  refine ⟨readToken_text_of_tokenAt h, ?_⟩
  obtain ⟨kind, count, -, -, rfl, -⟩ := tokenAt_eq_ok h
  rw [textAt, String.toList_ofList]
  exact fun d hd => honeLine d (List.mem_of_mem_take hd)

/-- The tokens of a text are spelled by lexemes. -/
theorem isSpelled_of_tokens {name text : String} {ts : List Token}
    (h : (ofText name text).tokens = .ok ts) : ∀ t ∈ ts, t.IsSpelled :=
  forall_mem_of_piecesFrom (p := ⟨0, 0⟩)
    (fun _ _ => isSpelled_of_tokenAt (oneLine_rest_ofText name text _))
    (numbered_ofText name text).pos h

end File
end Kiln
