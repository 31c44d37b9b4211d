import Kiln.Proofs.Coverage.Tokens
import Kiln.Tree.Build

/-!
# Lexemes

A lexeme is a text that is read as one token to its end.  It is read as the same token
in front of a separator, such as a blank or the beginning of a comment, whatever comes
then: no token goes on over a separator except within quotes, and a string ends with its
closing quote.
-/

namespace Kiln

/-! ## Blanks -/

/-- The code points of the blanks. -/
def blankCodes : List Nat :=
  blankRanges.flatMap fun r => List.range' r.1 (r.2 + 1 - r.1)

theorem toNat_mem_blankCodes {c : Char} (h : isBlank c = true) : c.toNat ∈ blankCodes := by
  rw [isBlank, CodeRanges.holds, List.any_eq_true] at h
  obtain ⟨r, hr, hc⟩ := h
  simp only [Bool.and_eq_true, decide_eq_true_eq] at hc
  rw [blankCodes, List.mem_flatMap]
  refine ⟨r, hr, ?_⟩
  rw [List.mem_range'_1]
  omega

/-- What holds of the character of each code of a blank holds of all blanks. -/
theorem forall_blank {p : Char → Bool} (h : blankCodes.all fun n => p (Char.ofNat n))
    {c : Char} (hc : isBlank c = true) : p c = true := by
  have hp := List.all_eq_true.1 h c.toNat (toNat_mem_blankCodes hc)
  rwa [Char.ofNat_toNat] at hp

/-- Blanks do not stand in words. -/
theorem isWordPart_of_isBlank {c : Char} (h : isBlank c = true) : isWordPart c = false := by
  have hnot : (!isWordPart c) = true :=
    forall_blank (p := fun c => !isWordPart c) (by decide +kernel) h
  simpa using hnot

theorem isWordStart_of_isBlank {c : Char} (h : isBlank c = true) : isWordStart c = false := by
  cases hstart : isWordStart c with
  | false => rfl
  | true =>
      have hpart := isWordPart_of_isWordStart hstart
      rw [isWordPart_of_isBlank h] at hpart
      cases hpart

/-- No token begins with a blank. -/
theorem readToken_of_isBlank {c : Char} (h : isBlank c = true) (cs : List Char) :
    readToken (c :: cs) = .stuck 0 (.invalidCharacter c) := by
  have hstart := isWordStart_of_isBlank h
  have hnot : (!c.isDigit && c != '"' && !Symbol.isStart c) = true :=
    forall_blank (p := fun c => !c.isDigit && c != '"' && !Symbol.isStart c)
      (by decide +kernel) h
  simp only [Bool.and_eq_true, Bool.not_eq_true', bne_iff_ne, ne_eq] at hnot
  simp [readToken, hstart, hnot]

/-! ## Sorts of tokens -/

/-- What begins a token says how it is read, whatever follows: as a word, as a number, as
a string or as a symbol. -/
theorem readToken_cases {c : Char} {cs : List Char} {kind : Kind}
    (h : (readToken (c :: cs)).outcome = .ok kind) :
    (∀ more, readToken (c :: more) = readWord (c :: more)) ∨
      (∀ more, readToken (c :: more) = readNumber (c :: more)) ∨
      (∀ more, readToken (c :: more) = readString (c :: more)) ∨
      ∃ s, Symbol.match? (c :: cs) = some s ∧
        ∀ more s, Symbol.match? (c :: more) = some s →
          readToken (c :: more) = .token s.chars.length s.kind := by
  by_cases hstart : isWordStart c = true
  · exact .inl fun more => by simp only [readToken, if_pos hstart]
  by_cases hdigit : c.isDigit = true
  · exact .inr (.inl fun more => by simp only [readToken, if_neg hstart, if_pos hdigit])
  by_cases hquote : c = '"'
  · exact .inr (.inr (.inl fun more => by
      simp only [readToken, if_neg hstart, if_neg hdigit, if_pos hquote]))
  by_cases hsymbol : Symbol.isStart c = true
  · refine .inr (.inr (.inr ?_))
    cases hs : Symbol.match? (c :: cs) with
    | none =>
        simp only [readToken, if_neg hstart, if_neg hdigit, if_neg hquote, if_pos hsymbol, hs] at h
        cases h
    | some s =>
        refine ⟨s, rfl, fun more s hs => ?_⟩
        simp only [readToken, if_neg hstart, if_neg hdigit, if_neg hquote, if_pos hsymbol, hs]
  · simp only [readToken, if_neg hstart, if_neg hdigit, if_neg hquote, if_neg hsymbol] at h
    cases h

/-! ## In front of a separator -/

/-- A character that stands neither in a word nor behind the first character of a symbol:
no token but a string goes on over it. -/
def Separates (c : Char) : Prop :=
  isWordPart c = false ∧ ∀ s ∈ Symbol.table, c ∉ s.chars.tail

/-- Blanks separate tokens. -/
theorem separates_of_isBlank {c : Char} (h : isBlank c = true) : Separates c := by
  refine ⟨isWordPart_of_isBlank h, ?_⟩
  have htails : (Symbol.table.all fun s => !s.chars.tail.contains c) = true :=
    forall_blank (p := fun c => Symbol.table.all fun s => !s.chars.tail.contains c)
      (by decide +kernel) h
  simpa using htails

/-- The beginning of a comment separates tokens, unless it is read with a slash before it. -/
theorem separates_slash : Separates '/' := by
  constructor <;> decide +kernel

theorem isWordPart_of_isHexDigit {c : Char} (h : isHexDigit c = true) : isWordPart c = true := by
  have hcode : c.toNat < 128 := by
    simp only [isHexDigit, Char.isDigit, Bool.or_eq_true, Bool.and_eq_true, decide_eq_true_eq,
      Char.le_def, UInt32.le_iff_toNat_le] at h
    simp only [Char.toNat]
    rcases h with (h | h) | h
    · exact Nat.lt_of_le_of_lt h.2 (by decide)
    · exact Nat.lt_of_le_of_lt h.2 (by decide)
    · exact Nat.lt_of_le_of_lt h.2 (by decide)
  have hall : ∀ n < 128, isHexDigit (Char.ofNat n) = true → isWordPart (Char.ofNat n) = true := by
    decide +kernel
  have hc := hall c.toNat hcode
  rw [Char.ofNat_toNat] at hc
  exact hc h

namespace Separates

variable {c : Char} (h : Separates c)

include h

theorem not_isHexDigit : isHexDigit c = false := by
  apply Bool.eq_false_iff.2
  intro hdigit
  have hpart := h.1
  rw [isWordPart_of_isHexDigit hdigit] at hpart
  cases hpart

theorem not_isDigit : c.isDigit = false := by
  have hdigit := h.not_isHexDigit
  rw [isHexDigit, Bool.or_eq_false_iff, Bool.or_eq_false_iff] at hdigit
  exact hdigit.1.1

theorem ne_of_isWordPart {d : Char} (hd : isWordPart d = true) : c ≠ d := by
  rintro rfl
  rw [h.1] at hd
  cases hd

theorem ne_dot : c ≠ '.' := by
  rintro rfl
  exact h.2 (.ofPunctuation .ellipsis) (by decide) (by decide)

theorem ne_sign : c ≠ '+' ∧ c ≠ '-' := by
  constructor
  · rintro rfl
    exact h.2 (.ofOperator .increment) (by decide) (by decide)
  · rintro rfl
    exact h.2 (.ofOperator .decrement) (by decide) (by decide)

end Separates

section Separator

variable {c : Char}

theorem takeWhile_separator {accept : Char → Bool} (haccept : accept c = false)
    (cs more : List Char) : (cs ++ c :: more).takeWhile accept = cs.takeWhile accept := by
  induction cs with
  | nil => simp [haccept]
  | cons d cs ih => simp [List.takeWhile_cons, ih]

theorem isPrefixOf_separator {text : List Char} (htext : c ∉ text) (cs more : List Char) :
    text.isPrefixOf (cs ++ c :: more) = text.isPrefixOf cs := by
  induction text generalizing cs with
  | nil => simp
  | cons t text ih =>
      rw [List.mem_cons, not_or] at htext
      cases cs with
      | nil =>
          have hne : (t == c) = false := by simpa using Ne.symm htext.1
          simp [List.isPrefixOf_cons_cons, hne]
      | cons d cs => simp [List.isPrefixOf_cons_cons, ih htext.2]

theorem isPrefixOf_cons_separator {text : List Char} (htext : c ∉ text.tail) (d : Char)
    (cs more : List Char) :
    text.isPrefixOf (d :: cs ++ c :: more) = text.isPrefixOf (d :: cs) := by
  cases text with
  | nil => simp
  | cons t text =>
      rw [List.tail_cons] at htext
      rw [List.cons_append, List.isPrefixOf_cons_cons, List.isPrefixOf_cons_cons,
        isPrefixOf_separator htext]

variable (hc : Separates c)

include hc

theorem digitCount_separator (cs more : List Char) :
    digitCount (cs ++ c :: more) = digitCount cs := by
  rw [digitCount, digitCount, takeWhile_separator hc.not_isDigit]

theorem fractionLength_separator (cs more : List Char) :
    fractionLength (cs ++ c :: more) = fractionLength cs := by
  cases cs with
  | nil => simp [fractionLength, hc.ne_dot]
  | cons d cs =>
      by_cases hd : d = '.'
      · subst hd
        simp [fractionLength, digitCount_separator hc]
      · unfold fractionLength
        simp [hd]

theorem exponentMark?_separator (cs more : List Char) :
    exponentMark? (cs ++ c :: more) = exponentMark? cs := by
  cases cs with
  | nil =>
      have hlower : c ≠ 'e' := hc.ne_of_isWordPart (by decide)
      have hupper : c ≠ 'E' := hc.ne_of_isWordPart (by decide)
      simp [exponentMark?, hlower, hupper]
  | cons d cs =>
      cases cs with
      | nil => simp [exponentMark?, hc.ne_sign]
      | cons s cs => simp [exponentMark?]

theorem hasHexPrefix_separator (cs more : List Char) :
    hasHexPrefix (cs ++ c :: more) = hasHexPrefix cs := by
  have hzero : c ≠ '0' := hc.ne_of_isWordPart (by decide)
  have hlower : c ≠ 'x' := hc.ne_of_isWordPart (by decide)
  have hupper : c ≠ 'X' := hc.ne_of_isWordPart (by decide)
  rw [hasHexPrefix, hasHexPrefix, isPrefixOf_separator (by simp [hzero, hlower]),
    isPrefixOf_separator (by simp [hzero, hupper])]

theorem closeNumber_separator {cs : List Char} {length : Nat} (hle : length ≤ cs.length)
    (form : NumberForm) (more : List Char) :
    closeNumber (cs ++ c :: more) length form = closeNumber cs length form := by
  rcases Nat.lt_or_eq_of_le hle with hlt | rfl
  · rw [closeNumber, closeNumber, List.getElem?_append_left hlt]
  · simp [closeNumber, hc.1]

theorem readHexadecimal_separator {cs : List Char} (hle : 2 ≤ cs.length) (more : List Char) :
    readHexadecimal (cs ++ c :: more) = readHexadecimal cs := by
  have hdigits := length_takeWhile_le isHexDigit (cs.drop 2)
  rw [List.length_drop] at hdigits
  simp only [readHexadecimal, List.drop_append_of_le_length hle,
    takeWhile_separator hc.not_isHexDigit]
  split
  · rfl
  · rw [closeNumber_separator hc (by omega)]

theorem readInteger_separator {cs : List Char} {length : Nat} (hle : length ≤ cs.length)
    (more : List Char) :
    readInteger (cs ++ c :: more) length = readInteger cs length := by
  cases cs with
  | nil =>
      have hlength : length = 0 := by simpa using hle
      subst hlength
      simp [readInteger, closeNumber, hc.1]
  | cons d cs =>
      unfold readInteger
      rw [List.take_append_of_le_length hle, List.cons_append, List.head?_cons, List.head?_cons,
        ← List.cons_append, closeNumber_separator hc hle, closeNumber_separator hc hle]
      split
      · split
        · next distance hdistance =>
            have hlt := (List.findIdx?_eq_some_iff_getElem.1 hdistance).choose
            rw [List.length_take] at hlt
            simp only [List.getD_eq_getElem?_getD]
            rw [List.getElem?_append_left (by omega)]
        · rfl
      · rfl

theorem readNumber_separator (cs more : List Char) :
    readNumber (cs ++ c :: more) = readNumber cs := by
  have hwhole := digitCount_le cs
  have hfraction := fractionLength_le (cs.drop (digitCount cs))
  rw [List.length_drop] at hfraction
  simp only [readNumber, hasHexPrefix_separator hc, digitCount_separator hc,
    List.drop_append_of_le_length hwhole, fractionLength_separator hc]
  generalize hlength : digitCount cs + fractionLength (cs.drop (digitCount cs)) = length
  have hle : length ≤ cs.length := by omega
  split
  · next hhex => exact readHexadecimal_separator hc (two_le_length_of_hasHexPrefix hhex) more
  · rw [List.drop_append_of_le_length hle, exponentMark?_separator hc]
    split
    · next mark hmark =>
        have hmarkLe := exponentMark?_le hmark
        rw [List.length_drop] at hmarkLe
        have hle' : length + mark ≤ cs.length := by omega
        have hdigits := digitCount_le (cs.drop (length + mark))
        rw [List.length_drop] at hdigits
        rw [List.drop_append_of_le_length hle', digitCount_separator hc,
          closeNumber_separator hc (by omega)]
    · rw [readInteger_separator hc hwhole, closeNumber_separator hc hle]

theorem match?_separator (d : Char) (cs more : List Char) :
    Symbol.match? (d :: cs ++ c :: more) = Symbol.match? (d :: cs) := by
  have hsame : ∀ symbols : List Symbol, (∀ s ∈ symbols, c ∉ s.chars.tail) →
      symbols.find? (fun s => s.chars.isPrefixOf (d :: cs ++ c :: more)) =
        symbols.find? (fun s => s.chars.isPrefixOf (d :: cs)) := by
    intro symbols hsymbols
    induction symbols with
    | nil => rfl
    | cons s symbols ih =>
        rw [List.forall_mem_cons] at hsymbols
        rw [List.find?_cons, List.find?_cons, isPrefixOf_cons_separator hsymbols.1,
          ih hsymbols.2]
  exact hsame _ hc.2

end Separator

theorem stringTail?_cons {c : Char} (hquote : c ≠ '"') (hescape : c ≠ '\\') (cs : List Char) :
    stringTail? (c :: cs) = (stringTail? cs).map (· + 1) := by
  rw [stringTail?.eq_def]
  split
  · next h => cases h
  · next h =>
      cases h
      exact absurd rfl hescape
  · next h =>
      cases h
      exact absurd rfl hquote
  · next h =>
      cases h
      exact absurd rfl hescape
  · next h =>
      cases h
      rfl

/-- A string that is closed ends where it does, whatever follows. -/
theorem stringTail?_append {cs : List Char} {count : Nat} (h : stringTail? cs = some count)
    (more : List Char) : stringTail? (cs ++ more) = some count := by
  induction hlen : cs.length using Nat.strongRecOn generalizing cs count with
  | ind n ih =>
      unfold stringTail? at h
      split at h
      · cases h
      · cases h
      · cases h
        simp [stringTail?]
      · rw [Option.map_eq_some_iff] at h
        obtain ⟨inner, hinner, rfl⟩ := h
        simp only [List.length_cons] at hlen
        simp [stringTail?, ih _ (by omega) hinner rfl]
      · next c cs hlone hquote hescape =>
          rw [Option.map_eq_some_iff] at h
          obtain ⟨inner, hinner, rfl⟩ := h
          simp only [List.length_cons] at hlen
          have htail := ih _ (by omega) hinner rfl
          have hnotQuote : c ≠ '"' := by
            rintro rfl
            exact hquote rfl
          have hnotEscape : c ≠ '\\' := by
            rintro rfl
            cases cs with
            | nil => exact hlone rfl rfl
            | cons c cs => exact hescape c cs rfl rfl
          rw [List.cons_append, stringTail?_cons hnotQuote hnotEscape, htail]
          rfl

theorem readString_append {c : Char} {cs : List Char} {kind : Kind}
    (h : (readString (c :: cs)).outcome = .ok kind) (more : List Char) :
    readString (c :: cs ++ more) = readString (c :: cs) := by
  rw [readString, List.tail_cons] at h
  cases htail : stringTail? cs with
  | none =>
      rw [htail] at h
      cases h
  | some count =>
      rw [List.cons_append, readString, readString, List.tail_cons, List.tail_cons,
        stringTail?_append htail, htail]

/-- A token is read alike in front of a separator. -/
theorem readToken_separator {c : Char} (hc : Separates c) {cs : List Char} {kind : Kind}
    (h : (readToken cs).outcome = .ok kind) (more : List Char) :
    readToken (cs ++ c :: more) = readToken cs := by
  cases cs with
  | nil => cases h
  | cons d cs =>
      rcases readToken_cases h with hword | hnumber | hstring | ⟨s, hs, hsymbol⟩
      · rw [List.cons_append, hword, hword, ← List.cons_append, readWord, readWord,
          takeWhile_separator hc.1]
      · rw [List.cons_append, hnumber, hnumber, ← List.cons_append, readNumber_separator hc]
      · rw [hstring] at h
        rw [List.cons_append, hstring, hstring, ← List.cons_append, readString_append h]
      · have hsame := match?_separator hc d cs more
        rw [hs, List.cons_append] at hsame
        rw [List.cons_append, hsymbol _ _ hsame, hsymbol _ _ hs]

/-! ## Bases -/

theorem kind_of_closeNumber {cs : List Char} {length : Nat} {form : NumberForm} {kind : Kind}
    (h : (closeNumber cs length form).outcome = .ok kind) : kind = form.kind := by
  unfold closeNumber at h
  split at h
  · split at h
    · cases h
    · cases h
      rfl
  · cases h
    rfl

theorem baseOf_of_hasHexPrefix {cs : List Char} (h : hasHexPrefix cs = true) :
    Build.baseOf cs = .hexadecimal := by
  rw [hasHexPrefix, Bool.or_eq_true, List.isPrefixOf_iff_prefix, List.isPrefixOf_iff_prefix] at h
  rcases h with ⟨more, rfl⟩ | ⟨more, rfl⟩ <;> rfl

theorem baseOf_of_not_hasHexPrefix {cs : List Char} (h : hasHexPrefix cs = false) :
    Build.baseOf cs = if 1 < cs.length ∧ cs.head? = some '0' then .octal else .decimal := by
  unfold Build.baseOf
  split
  · simp [hasHexPrefix] at h
  · simp [hasHexPrefix] at h
  · simp
  · next cs hoctal =>
      rw [if_neg]
      rintro ⟨hlength, hhead⟩
      obtain ⟨more, rfl⟩ := List.head?_eq_some_iff.1 hhead
      cases more with
      | nil => simp at hlength
      | cons c more => exact hoctal c more rfl

theorem readInteger_base {cs : List Char} {base : Base} (hhex : hasHexPrefix cs = false)
    (h : (readInteger cs cs.length).outcome = .ok (.integer base)) : base = Build.baseOf cs := by
  rw [baseOf_of_not_hasHexPrefix hhex]
  unfold readInteger at h
  split at h
  · next hoctal =>
      rw [if_pos hoctal]
      split at h
      · cases h
      · exact (Kind.integer.inj (kind_of_closeNumber h))
  · next hdecimal =>
      rw [if_neg hdecimal]
      exact (Kind.integer.inj (kind_of_closeNumber h))

theorem readNumber_base {cs : List Char} {base : Base}
    (h : readNumber cs = .token cs.length (.integer base)) : base = Build.baseOf cs := by
  have houtcome : (readNumber cs).outcome = .ok (.integer base) := by
    rw [h]
    rfl
  have hlength : (readNumber cs).length = cs.length := by
    rw [h]
    rfl
  unfold readNumber at houtcome hlength
  dsimp only at houtcome hlength
  cases hhex : hasHexPrefix cs with
  | true =>
      simp only [hhex, if_true, readHexadecimal] at houtcome
      rw [baseOf_of_hasHexPrefix hhex]
      split at houtcome
      · cases houtcome
      · exact Kind.integer.inj (kind_of_closeNumber houtcome)
  | false =>
      simp only [hhex, Bool.false_eq_true, if_false] at houtcome hlength
      split at houtcome
      · split at houtcome
        · cases houtcome
        · cases kind_of_closeNumber houtcome
      · next hmark =>
          simp only [hmark] at hlength
          split at houtcome
          · next hwhole =>
              rw [if_pos hwhole, length_readInteger] at hlength
              rw [hlength] at houtcome
              exact readInteger_base hhex houtcome
          · cases kind_of_closeNumber houtcome

/-! ## Lexemes -/

/-- A text without line ends. -/
def OneLine (cs : List Char) : Prop := ∀ c ∈ cs, c ≠ '\n' ∧ c ≠ '\r'

theorem all_iff_oneLine {cs : List Char} :
    (cs.all fun c => c != '\n' && c != '\r') = true ↔ OneLine cs := by
  simp only [List.all_eq_true, Bool.and_eq_true, bne_iff_ne, OneLine]

instance (cs : List Char) : Decidable (OneLine cs) := decidable_of_iff _ all_iff_oneLine

/-- A text on one line that is one token of a kind. -/
structure IsLexeme (kind : Kind) (text : String) : Prop where
  reads : readToken text.toList = .token text.toList.length kind
  oneLine : OneLine text.toList

theorem isLexeme_ofList {kind : Kind} {cs : List Char}
    (hreads : readToken cs = .token cs.length kind) (honeLine : OneLine cs) :
    IsLexeme kind (String.ofList cs) := by
  constructor
  · rw [String.toList_ofList]
    exact hreads
  · rw [String.toList_ofList]
    exact honeLine

theorem isLexeme_keyword (k : Keyword) : IsLexeme (.keyword k) k.text := by
  cases k <;> exact isLexeme_ofList rfl (by decide)

theorem isLexeme_operator (o : Operator) : IsLexeme (.operator o) o.text := by
  cases o <;> exact isLexeme_ofList rfl (by decide)

/-- Every mark but the hash and the quote, which stand in directives only, is a lexeme. -/
theorem isLexeme_punctuation {p : Punctuation} (hhash : p ≠ .hash) (hquote : p ≠ .quote) :
    IsLexeme (.punctuation p) p.text := by
  cases p with
  | hash => exact absurd rfl hhash
  | quote => exact absurd rfl hquote
  | _ => exact isLexeme_ofList rfl (by decide)

namespace IsLexeme

variable {kind : Kind} {text : String}

/-- The base of an integer literal can be told from the beginning of its spelling. -/
theorem base_eq {base : Base} (h : IsLexeme (.integer base) text) :
    base = Build.baseOf text.toList := by
  have hreads := h.reads
  have houtcome := congrArg Reading.outcome hreads
  cases hcs : text.toList with
  | nil =>
      rw [hcs] at houtcome
      cases houtcome
  | cons c cs =>
      rw [hcs] at hreads houtcome
      rcases readToken_cases houtcome with hword | hnumber | hstring | ⟨s, hs, hsymbol⟩
      · rw [hword, readWord] at houtcome
        cases hfound : Keyword.ofChars? ((c :: cs).takeWhile isWordPart) <;>
          rw [hfound] at houtcome <;> cases houtcome
      · rw [hnumber] at hreads
        exact readNumber_base hreads
      · rw [hstring, readString] at houtcome
        split at houtcome <;> cases houtcome
      · have hkinds : ∀ s ∈ Symbol.table, s.kind.isOperand = false := by decide
        have hkind := hkinds s (Symbol.mem_table_of_match? hs)
        rw [hsymbol _ _ hs] at houtcome
        rw [Except.ok.inj houtcome] at hkind
        cases hkind

/-- A lexeme begins neither with a blank nor with the hash of a directive. -/
theorem exists_cons (h : IsLexeme kind text) :
    ∃ c cs, text.toList = c :: cs ∧ isBlank c = false ∧ c ≠ '#' := by
  have houtcome := congrArg Reading.outcome h.reads
  cases hcs : text.toList with
  | nil =>
      rw [hcs] at houtcome
      cases houtcome
  | cons c cs =>
      rw [hcs] at houtcome
      refine ⟨c, cs, rfl, ?_, ?_⟩
      · cases hblank : isBlank c with
        | false => rfl
        | true =>
            rw [readToken_of_isBlank hblank] at houtcome
            cases houtcome
      · rintro rfl
        cases houtcome

/-- A lexeme is read as such at the end of its line and in front of a separator. -/
theorem readToken_append (h : IsLexeme kind text) {more : List Char}
    (hmore : ∀ c ∈ more.head?, Separates c) :
    readToken (text.toList ++ more) = .token text.toList.length kind := by
  cases more with
  | nil =>
      rw [List.append_nil]
      exact h.reads
  | cons c more =>
      rw [readToken_separator (hmore c rfl) (congrArg Reading.outcome h.reads), h.reads]

/-- No lexeme begins a comment, but for a slash in front of a further slash. -/
theorem not_comment (h : IsLexeme kind text) {more : List Char}
    (hmore : ∀ c ∈ more.head?, Separates c) (hslash : text = "/" → more.head? ≠ some '/') :
    commentMark.isPrefixOf (text.toList ++ more) = false := by
  have hreads := h.readToken_append hmore
  apply Bool.eq_false_iff.2
  intro hcomment
  rw [List.isPrefixOf_iff_prefix] at hcomment
  obtain ⟨after, hafter⟩ := hcomment
  rw [← hafter] at hreads
  have hlength : 1 = text.toList.length := congrArg Reading.length hreads
  have htext := congrArg (List.take text.toList.length) hafter
  have hsecond := congrArg (List.drop text.toList.length) hafter
  rw [List.take_left, ← hlength] at htext
  rw [List.drop_left, ← hlength] at hsecond
  refine hslash ?_ (by rw [← hsecond]; rfl)
  rw [← String.toList_inj, ← htext]
  rfl

end IsLexeme
end Kiln
