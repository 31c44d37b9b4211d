import Kiln.Proofs.Lexing.LongestMatch
import Kiln.Proofs.Lexing.Spelling
import Kiln.Proofs.Safety.Readings

/-!
# Numbers are longest matches

A number is read part by part: its digits, a fraction, an exponent.  What is taken is the longest
literal that begins there.  It is refused if a word character follows, and so is a literal that
looks octal and has a digit 8 or 9.
-/

open scoped Computability

namespace Kiln
namespace Number

/-! ## Literals -/

/-- Digits, at least one. -/
def digits : Language Char := oneOf Char.isDigit * (oneOf Char.isDigit)∗

/-- A point and digits behind it, or none. -/
def fraction : Language Char := oneOf (· == '.') * (oneOf Char.isDigit)∗

/-- A sign. -/
def sign : Language Char := oneOf fun c => c == '+' || c == '-'

/-- The mark of an exponent, a sign or none, and digits. -/
def exponent : Language Char := oneOf (fun c => c == 'e' || c == 'E') * (1 + sign) * digits

/-- Hexadecimal digits behind their prefix. -/
def hexadecimal : Language Char :=
  oneOf (· == '0') * oneOf (fun c => c == 'x' || c == 'X') *
    (oneOf isHexDigit * (oneOf isHexDigit)∗)

/-- Digits with a fraction and an exponent, each of which may be missing. -/
def decimal : Language Char := digits * (1 + fraction) * (1 + exponent)

/-- The literals of numbers. -/
def literals : Language Char := hexadecimal + decimal

/-- The kind of number that a literal stands for. -/
def kindOf (literal : List Char) : Kind :=
  if 'x' ∈ literal ∨ 'X' ∈ literal then .integer .hexadecimal
  else if '.' ∈ literal ∨ 'e' ∈ literal ∨ 'E' ∈ literal then .float
  else if 1 < literal.length ∧ literal.head? = some '0' then .integer .octal
  else .integer .decimal

/-- Two or more digits that begin with 0 and are not all octal. -/
def IsBadOctal (literal : List Char) : Prop :=
  (∀ c ∈ literal, c.isDigit = true) ∧ 1 < literal.length ∧ literal.head? = some '0' ∧
    ('8' ∈ literal ∨ '9' ∈ literal)

/-! ## Longest literals -/

section Parts

variable {word rest cs : List Char} {c : Char}

/-- What a mantissa goes on with. -/
def ContinuesMantissa (c : Char) : Prop := c.isDigit = true ∨ c = '.'

theorem head_of_mem_digits (h : word ∈ digits) : ∀ c ∈ word.head?, c.isDigit = true := by
  obtain ⟨d, more, rfl, hd, -⟩ := accept_of_mem_oneOf_mul h
  rintro c ⟨rfl⟩
  exact hd

theorem head_of_mem_fraction (h : word ∈ 1 + fraction) : ∀ c ∈ word.head?, c = '.' := by
  rcases h with rfl | h
  · rintro c ⟨⟩
  · obtain ⟨d, more, rfl, hd, -⟩ := accept_of_mem_oneOf_mul h
    rintro c ⟨rfl⟩
    exact beq_iff_eq.1 hd

theorem head_of_mem_exponent (h : word ∈ 1 + exponent) : ∀ c ∈ word.head?, c = 'e' ∨ c = 'E' := by
  rcases h with rfl | h
  · rintro c ⟨⟩
  · rw [exponent, mul_assoc] at h
    obtain ⟨d, more, rfl, hd, -⟩ := accept_of_mem_oneOf_mul h
    rintro c ⟨rfl⟩
    simpa using hd

/-- The fraction that a text begins with. -/
theorem exists_fraction (cs : List Char) :
    ∃ word rest, cs = word ++ rest ∧ fractionLength cs = word.length ∧
      (word ≠ [] → '.' ∈ word) ∧ Greedy (1 + fraction) ContinuesMantissa word rest := by
  by_cases hpoint : ∃ more, cs = '.' :: more
  · obtain ⟨more, rfl⟩ := hpoint
    obtain ⟨word, rest, rfl, htake, hword, hrest⟩ := exists_run Char.isDigit more
    have hgreedy := Greedy.mul (greedy_oneOf (· == '.') (beq_self_eq_true '.'))
      (greedy_kstar hword hrest) fun _ _ _ _ => id
    refine ⟨'.' :: word, rest, rfl, ?_, fun _ => List.mem_cons_self, hgreedy.some.mono ?_⟩
    · rw [fractionLength, digitCount, htake, List.length_cons, Nat.add_comm]
    · rintro c ((⟨⟨⟩⟩ | hc) | rfl)
      · exact Or.inl hc
      · exact Or.inr rfl
  · have hlength : fractionLength cs = 0 := by
      unfold fractionLength
      split
      · next more => exact absurd ⟨more, rfl⟩ hpoint
      · rfl
    refine ⟨[], cs, rfl, hlength, absurd rfl, Greedy.none (not_prefix_oneOf_mul ?_)⟩
    intro c hc
    cases cs with
    | nil => cases hc
    | cons d cs =>
        cases hc
        apply Bool.eq_false_iff.2
        intro hd
        exact hpoint ⟨cs, congrArg (· :: cs) (beq_iff_eq.1 hd)⟩

/-- The sign that an exponent has behind its mark. -/
theorem exists_sign (hc : c = 'e' ∨ c = 'E') (cs : List Char) :
    ∃ word rest, cs = word ++ rest ∧ exponentMark? (c :: cs) = some (1 + word.length) ∧
      Greedy (1 + sign) (fun d => d = '+' ∨ d = '-') word rest := by
  by_cases hsign : ∃ d more, cs = d :: more ∧ (d = '+' ∨ d = '-')
  · obtain ⟨d, more, rfl, hd⟩ := hsign
    have hgreedy := (@greedy_oneOf d more (fun c => c == '+' || c == '-')
      (by simpa using hd)).some
    refine ⟨[d], more, rfl, by simp [exponentMark?, hc, hd], hgreedy.mono ?_⟩
    rintro e (⟨⟨⟩⟩ | rfl)
    exact hd
  · have hmark : exponentMark? (c :: cs) = some 1 := by
      cases cs with
      | nil => simp [exponentMark?, hc]
      | cons d more =>
          have hd : ¬(d = '+' ∨ d = '-') := fun hd => hsign ⟨d, more, rfl, hd⟩
          simp [exponentMark?, hc, hd]
    refine ⟨[], cs, rfl, hmark, Greedy.none (not_prefix_oneOf ?_)⟩
    intro d hd
    cases cs with
    | nil => cases hd
    | cons e more =>
        cases hd
        apply Bool.eq_false_iff.2
        intro he
        exact hsign ⟨d, more, rfl, by simpa using he⟩

/-- What stands in the place of an exponent: something else, a mark without digits, or an
exponent. -/
theorem exponent_cases (cs : List Char) :
    (exponentMark? cs = none ∧ Greedy (1 + exponent) (fun _ => True) [] cs) ∨
      (∃ mark, exponentMark? cs = some mark ∧ digitCount (cs.drop mark) = 0 ∧
        (∃ c ∈ cs.head?, isWordPart c = true) ∧ Greedy (1 + exponent) (fun _ => True) [] cs) ∨
      ∃ mark word rest, exponentMark? cs = some mark ∧ cs = word ++ rest ∧
        digitCount (cs.drop mark) ≠ 0 ∧ mark + digitCount (cs.drop mark) = word.length ∧
        ('e' ∈ word ∨ 'E' ∈ word) ∧ Greedy (1 + exponent) (fun _ => True) word rest := by
  by_cases hmark : ∃ c more, cs = c :: more ∧ (c = 'e' ∨ c = 'E')
  · obtain ⟨c, more, rfl, hc⟩ := hmark
    obtain ⟨signs, rest, rfl, hmark, hsign⟩ := exists_sign hc more
    obtain ⟨word, rest, rfl, htake, hword, hrest⟩ := exists_run Char.isDigit rest
    have hfirst := Greedy.mul (greedy_oneOf (fun c => c == 'e' || c == 'E')
      (by simpa using hc)) hsign fun _ _ _ _ => id
    have hcount : digitCount ((c :: (signs ++ (word ++ rest))).drop (1 + signs.length)) =
        word.length := by
      rw [Nat.add_comm, List.drop_succ_cons, List.drop_left, digitCount, htake]
    have hstart : ∀ w ∈ digits, ∀ d ∈ w.head?, ¬(False ∨ d = '+' ∨ d = '-') := by
      rintro w hw d hd (⟨⟨⟩⟩ | rfl | rfl)
      · cases head_of_mem_digits hw _ hd
      · cases head_of_mem_digits hw _ hd
    refine Or.inr ?_
    by_cases hne : word = []
    · subst hne
      refine Or.inl ⟨_, hmark, hcount, ⟨c, rfl, ?_⟩, Greedy.none ?_⟩
      · rcases hc with rfl | rfl <;> decide
      · exact hfirst.not_prefix_mul (not_prefix_oneOf_mul hrest) hstart
    · have hgreedy := hfirst.mul (greedy_plus hword hne hrest) hstart
      refine Or.inr ⟨_, c :: (signs ++ word), rest, hmark, by simp, ?_, ?_, ?_, ?_⟩
      · rw [hcount]
        exact mt List.length_eq_zero_iff.1 hne
      · rw [hcount, List.length_cons, List.length_append]
        omega
      · rcases hc with rfl | rfl
        · exact Or.inl List.mem_cons_self
        · exact Or.inr List.mem_cons_self
      · exact hgreedy.some.mono fun _ _ => trivial
  · refine Or.inl ⟨?_, Greedy.none ?_⟩
    · unfold exponentMark?
      split
      · next c more =>
          rw [if_neg fun hc => hmark ⟨c, more, rfl, hc⟩]
      · rfl
    · rw [exponent, mul_assoc]
      refine not_prefix_oneOf_mul fun c hc => ?_
      cases cs with
      | nil => cases hc
      | cons d more =>
          cases hc
          apply Bool.eq_false_iff.2
          intro hd
          exact hmark ⟨c, more, rfl, by simpa using hd⟩

/-- The parts of a decimal literal, each the longest one there is, make up the longest one. -/
theorem greedy_decimal {whole point mark rest : List Char}
    (hwhole : Greedy digits (fun c => c.isDigit = true) whole (point ++ (mark ++ rest)))
    (hpoint : Greedy (1 + fraction) ContinuesMantissa point (mark ++ rest))
    (hmark : Greedy (1 + exponent) (fun _ => True) mark rest) :
    Greedy decimal (fun _ => True) (whole ++ point ++ mark) rest := by
  have hmantissa := hwhole.mul hpoint fun w hw c hc hdigit => by
    rw [head_of_mem_fraction hw c hc] at hdigit
    cases hdigit
  refine (hmantissa.mul hmark fun w hw c hc hcontinues => ?_).mono fun _ _ => trivial
  rcases head_of_mem_exponent hw c hc with rfl | rfl
  · rcases hcontinues with hdigit | hdigit | hpoint
    · cases hdigit
    · cases hdigit
    · cases hpoint
  · rcases hcontinues with hdigit | hdigit | hpoint
    · cases hdigit
    · cases hdigit
    · cases hpoint

/-- The only decimal literal in front of the mark of hexadecimal literals is the 0 before it. -/
theorem greedy_decimal_zero (hc : c = 'x' ∨ c = 'X') :
    Greedy decimal (fun _ => True) ['0'] (c :: rest) := by
  have hnone : ∀ {accept : Char → Bool}, accept 'x' = false → accept 'X' = false →
      ∀ d ∈ (c :: rest).head?, accept d = false := by
    rintro accept hlower hupper d ⟨⟩
    rcases hc with rfl | rfl
    · exact hlower
    · exact hupper
  have hwhole : Greedy digits (fun d => d.isDigit = true) ['0'] ([] ++ ([] ++ c :: rest)) :=
    greedy_plus (List.forall_mem_singleton.2 rfl) (List.cons_ne_nil _ _) (hnone rfl rfl)
  have hpoint : Greedy (1 + fraction) ContinuesMantissa [] ([] ++ c :: rest) :=
    Greedy.none (not_prefix_oneOf_mul (hnone rfl rfl))
  have hmark : Greedy (1 + exponent) (fun _ => True) [] (c :: rest) := by
    refine Greedy.none ?_
    rw [exponent, mul_assoc]
    exact not_prefix_oneOf_mul (hnone rfl rfl)
  exact greedy_decimal hwhole hpoint hmark

/-- No decimal literal has a character in it that none of its parts has. -/
theorem avoids_decimal (hdigit : c.isDigit = false) (hpoint : (c == '.') = false)
    (hmark : (c == 'e' || c == 'E') = false) (hsign : (c == '+' || c == '-') = false) :
    Avoids c decimal := by
  have hdigits : Avoids c digits := (Avoids.oneOf _ hdigit).mul (Avoids.oneOf _ hdigit).kstar
  have hfraction : Avoids c fraction :=
    (Avoids.oneOf (· == '.') hpoint).mul (Avoids.oneOf _ hdigit).kstar
  have hexponent : Avoids c exponent :=
    ((Avoids.oneOf (fun c => c == 'e' || c == 'E') hmark).mul
      (Avoids.oneOf (fun c => c == '+' || c == '-') hsign).optional).mul hdigits
  exact (hdigits.mul hfraction.optional).mul hexponent.optional

end Parts

/-! ## Reading a literal -/

/-- A reading that takes the literal in front of a text, unless a word character follows or the
literal only looks octal. -/
structure Takes (literal rest : List Char) (r : Reading) : Prop where
  ok_iff : (∃ kind, r.outcome = .ok kind) ↔
    (∀ c ∈ rest.head?, isWordPart c = false) ∧ ¬IsBadOctal literal
  ok : ∀ kind, r.outcome = .ok kind → kind = kindOf literal ∧ r.length = literal.length
  error : ∀ fault distance, r.outcome = .error (fault, distance) →
    fault.code = .malformedNumber ∧ 0 < distance

section Readings

variable {literal rest : List Char} {form : NumberForm} {fault : LexicalFault} {count : Nat}

theorem takes_token (hkind : form.kind = kindOf literal) (hoctal : ¬IsBadOctal literal)
    (hnext : ∀ c ∈ rest.head?, isWordPart c = false) :
    Takes literal rest (.token literal.length form.kind) where
  ok_iff := ⟨fun _ => ⟨hnext, hoctal⟩, fun _ => ⟨_, rfl⟩⟩
  ok := by
    rintro kind ⟨⟩
    exact ⟨hkind, rfl⟩
  error := by rintro fault distance ⟨⟩

theorem takes_fault (hcode : fault.code = .malformedNumber) {distance : Nat} (hpos : 0 < distance)
    (hrefused : IsBadOctal literal ∨ ∃ c ∈ rest.head?, isWordPart c = true) :
    Takes literal rest (.faultAt count distance fault) where
  ok_iff := by
    constructor
    · rintro ⟨kind, ⟨⟩⟩
    · rintro ⟨hnext, hoctal⟩
      rcases hrefused with hbad | ⟨c, hc, hpart⟩
      · exact absurd hbad hoctal
      · cases hpart.symm.trans (hnext c hc)
  ok := by rintro kind ⟨⟩
  error := by
    rintro other other' ⟨⟩
    exact ⟨hcode, hpos⟩

theorem takes_closeNumber (hne : literal ≠ []) (hkind : form.kind = kindOf literal)
    (hoctal : ¬IsBadOctal literal) :
    Takes literal rest (closeNumber (literal ++ rest) literal.length form) := by
  unfold closeNumber
  cases rest with
  | nil =>
      rw [List.append_nil, List.getElem?_length]
      exact takes_token hkind hoctal fun c hc => absurd hc (by simp)
  | cons c rest =>
      have hget : (literal ++ c :: rest)[literal.length]? = some c := by simp
      rw [hget]
      dsimp only
      split
      · next hpart =>
          exact takes_fault rfl (List.length_pos_iff.2 hne) (Or.inr ⟨c, rfl, hpart⟩)
      · next hpart =>
          refine takes_token hkind hoctal ?_
          rintro d ⟨⟩
          exact Bool.eq_false_iff.2 hpart

/-- A digit that is greater than 7 is 8 or 9. -/
theorem eq_of_isDigit {c : Char} (hdigit : c.isDigit = true) :
    decide ('7' < c) = true ↔ c = '8' ∨ c = '9' := by
  have hcode : c.toNat < 128 := by
    simp only [Char.isDigit, Bool.and_eq_true, decide_eq_true_eq] at hdigit
    exact Nat.lt_of_le_of_lt hdigit.2 (by decide)
  have hall : ∀ n < 128, (Char.ofNat n).isDigit = true →
      (decide ('7' < Char.ofNat n) = true ↔ Char.ofNat n = '8' ∨ Char.ofNat n = '9') := by
    decide +kernel
  have hc := hall c.toNat hcode
  rw [Char.ofNat_toNat] at hc
  exact hc hdigit

/-- Digits make an octal number if they begin with 0, and a decimal one otherwise. -/
theorem kindOf_digits (hdigits : ∀ c ∈ literal, c.isDigit = true) :
    kindOf literal =
      if 1 < literal.length ∧ literal.head? = some '0' then .integer .octal
      else .integer .decimal := by
  have hnot : ∀ {c : Char}, c.isDigit = false → c ∉ literal := by
    intro c hc hmem
    cases hc.symm.trans (hdigits c hmem)
  rw [kindOf, if_neg, if_neg]
  · rintro (h | h | h)
    · exact hnot rfl h
    · exact hnot rfl h
    · exact hnot rfl h
  · rintro (h | h)
    · exact hnot rfl h
    · exact hnot rfl h

/-- A decimal literal with a point or an exponent is a floating-point number. -/
theorem takes_floating (hliteral : literal ∈ decimal)
    (hmark : '.' ∈ literal ∨ 'e' ∈ literal ∨ 'E' ∈ literal) :
    Takes literal rest (closeNumber (literal ++ rest) literal.length .floating) := by
  have hlower : 'x' ∉ literal := avoids_decimal rfl rfl rfl rfl literal hliteral
  have hupper : 'X' ∉ literal := avoids_decimal rfl rfl rfl rfl literal hliteral
  have hkind : kindOf literal = .float := by
    rw [kindOf, if_neg (not_or.2 ⟨hlower, hupper⟩), if_pos hmark]
  refine takes_closeNumber ?_ hkind.symm ?_
  · rintro rfl
    simp at hmark
  · rintro ⟨hdigits, -⟩
    rcases hmark with hmem | hmem | hmem
    · cases hdigits _ hmem
    · cases hdigits _ hmem
    · cases hdigits _ hmem

theorem takes_readInteger (hne : literal ≠ []) (hdigits : ∀ c ∈ literal, c.isDigit = true) :
    Takes literal rest (readInteger (literal ++ rest) literal.length) := by
  have hkind := kindOf_digits hdigits
  have hhead : (literal ++ rest).head? = literal.head? := List.head?_append_of_ne_nil _ hne
  unfold readInteger
  rw [hhead, List.take_left]
  split
  · next hoctal =>
      rw [if_pos hoctal] at hkind
      split
      · next distance hdistance =>
          obtain ⟨hlt, hgreater, -⟩ := List.findIdx?_eq_some_iff_getElem.1 hdistance
          have hmem := List.getElem_mem hlt
          refine takes_fault rfl ?_ (Or.inl ⟨hdigits, hoctal.1, hoctal.2, ?_⟩)
          · -- the first digit is a 0
            apply Nat.pos_of_ne_zero
            rintro rfl
            rw [List.head?_eq_getElem?, List.getElem?_eq_getElem hlt, Option.some_inj] at hoctal
            rw [hoctal.2] at hgreater
            cases hgreater
          · rcases (eq_of_isDigit (hdigits _ hmem)).1 hgreater with h | h
            · exact Or.inl (h ▸ hmem)
            · exact Or.inr (h ▸ hmem)
      · next hnone =>
          refine takes_closeNumber hne hkind.symm ?_
          rw [List.findIdx?_eq_none_iff] at hnone
          rintro ⟨-, -, -, hmem | hmem⟩
          · cases hnone _ hmem
          · cases hnone _ hmem
  · next hdecimal =>
      rw [if_neg hdecimal] at hkind
      exact takes_closeNumber hne hkind.symm fun hbad => hdecimal ⟨hbad.2.1, hbad.2.2.1⟩

end Readings

/-! ## The longest literal is taken -/

section Longest

variable {cs : List Char} {c : Char}

/-- Where the prefix of hexadecimal literals stands, the literal goes on to the last hexadecimal
digit behind it, and is the 0 alone if there is none. -/
theorem exists_takes_hexadecimal (hc : c = 'x' ∨ c = 'X') (more : List Char) :
    ∃ literal rest, '0' :: c :: more = literal ++ rest ∧
      IsLongestPrefix literals literal ('0' :: c :: more) ∧
      Takes literal rest (readHexadecimal ('0' :: c :: more)) := by
  obtain ⟨word, rest, rfl, htake, hword, hrest⟩ := exists_run isHexDigit more
  have hmark : Greedy (oneOf (· == '0') * oneOf fun c => c == 'x' || c == 'X')
      (fun _ => False ∨ False) ['0', c] (word ++ rest) :=
    Greedy.mul (greedy_oneOf (· == '0') (beq_self_eq_true '0'))
      (greedy_oneOf (fun c => c == 'x' || c == 'X') (by simpa using hc)) fun _ _ _ _ => id
  have hzero := (@greedy_decimal_zero (word ++ rest) c hc).isLongestPrefix
  have hread : readHexadecimal ('0' :: c :: (word ++ rest)) =
      if word.length = 0 then .stuck 2 .missingHexDigits
      else closeNumber ('0' :: c :: (word ++ rest)) (2 + word.length) .hexadecimal := by
    rw [readHexadecimal, List.drop_succ_cons, List.drop_succ_cons, List.drop_zero, htake]
  by_cases hne : word = []
  · subst hne
    refine ⟨['0'], c :: rest, rfl, ?_, ?_⟩
    · rw [literals, add_comm]
      refine hzero.add fun other hother hfront => ?_
      exact absurd hfront (hmark.not_prefix_mul (not_prefix_oneOf_mul hrest)
        (fun _ _ _ _ => or_self_iff.1) other hother)
    · rw [hread, if_pos List.length_nil]
      refine takes_fault rfl Nat.two_pos (Or.inr ⟨c, rfl, ?_⟩)
      rcases hc with rfl | rfl <;> decide
  · have hhex := (hmark.mul (greedy_plus hword hne hrest) fun _ _ _ _ => or_self_iff.1)
    refine ⟨'0' :: c :: word, rest, rfl, hhex.isLongestPrefix.add ?_, ?_⟩
    · intro other hother hfront
      exact Nat.le_trans (hzero.length_le other hother hfront) (by simp)
    · rw [hread, if_neg (mt List.length_eq_zero_iff.1 hne)]
      have hx : 'x' ∈ '0' :: c :: word ∨ 'X' ∈ '0' :: c :: word := by
        rcases hc with rfl | rfl
        · exact Or.inl (by simp)
        · exact Or.inr (by simp)
      have hclose := @takes_closeNumber ('0' :: c :: word) rest .hexadecimal
        (List.cons_ne_nil _ _) (if_pos hx).symm ?_
      · rwa [List.length_cons, List.length_cons, Nat.add_assoc, Nat.add_comm] at hclose
      · rintro ⟨hdigits, -⟩
        have hdigit := hdigits c (by simp)
        rcases hc with rfl | rfl <;> cases hdigit

/-- In front of a hexadecimal literal stands its prefix. -/
theorem hasHexPrefix_of_mem {other : List Char} (hother : other ∈ hexadecimal)
    (hfront : other <+: cs) : hasHexPrefix cs = true := by
  rw [hexadecimal, mul_assoc] at hother
  obtain ⟨zero, tail, rfl, hzero, htail⟩ := accept_of_mem_oneOf_mul hother
  obtain ⟨mark, tail, rfl, hmark, -⟩ := accept_of_mem_oneOf_mul htail
  obtain ⟨rest, rfl⟩ := hfront
  rw [beq_iff_eq] at hzero
  rw [Bool.or_eq_true, beq_iff_eq, beq_iff_eq] at hmark
  rcases hmark with rfl | rfl
  · simp [hasHexPrefix, hzero]
  · simp [hasHexPrefix, hzero]

/-- Elsewhere the literal is decimal, with the fraction and the exponent that are there. -/
theorem exists_takes_decimal (hdigit : ∃ d ∈ cs.head?, d.isDigit = true)
    (hhex : hasHexPrefix cs = false) :
    ∃ literal rest, cs = literal ++ rest ∧ IsLongestPrefix literals literal cs ∧
      Takes literal rest (readNumber cs) := by
  obtain ⟨whole, behind, rfl, htake, hwhole, hbehind⟩ := exists_run Char.isDigit cs
  have hne : whole ≠ [] := by
    rintro rfl
    obtain ⟨d, hd, hdigit⟩ := hdigit
    cases hdigit.symm.trans (hbehind d hd)
  have hcount : digitCount (whole ++ behind) = whole.length := congrArg List.length htake
  obtain ⟨point, rest, rfl, hfraction, hpoint, hgreedy⟩ := exists_fraction behind
  have hdrop : fractionLength ((whole ++ (point ++ rest)).drop whole.length) = point.length := by
    rw [List.drop_left, hfraction]
  have hread := readNumber_of_not_hasHexPrefix hhex hcount hdrop
  have hsplit : whole ++ (point ++ rest) = whole ++ point ++ rest := (List.append_assoc ..).symm
  have hdigits : Greedy digits (fun c => c.isDigit = true) whole (point ++ rest) :=
    greedy_plus hwhole hne hbehind
  rw [hsplit, ← List.length_append, List.drop_left] at hread
  rw [hsplit] at hhex ⊢
  have hlongest : ∀ {literal : List Char},
      IsLongestPrefix decimal literal (whole ++ point ++ rest) →
        IsLongestPrefix literals literal (whole ++ point ++ rest) := by
    intro literal h
    rw [literals, add_comm]
    refine h.add fun other hother hfront => ?_
    cases hhex.symm.trans (hasHexPrefix_of_mem hother hfront)
  rcases exponent_cases rest with ⟨hmark, hexponent⟩ | ⟨mark, hmark, hzero, hnext, hexponent⟩ |
    ⟨mark, power, rest, hmark, rfl, hpos, hlength, he, hexponent⟩
  · have hdecimal := greedy_decimal hdigits hgreedy hexponent
    rw [List.append_nil] at hdecimal
    refine ⟨whole ++ point, rest, rfl, hlongest hdecimal.isLongestPrefix, ?_⟩
    rw [hmark] at hread
    rw [hread]
    dsimp only
    split
    · next hsame =>
        have hnil : point = [] := by simpa using hsame
        rw [hnil, List.append_nil]
        exact takes_readInteger hne hwhole
    · next hlonger =>
        have hmem : '.' ∈ point := hpoint fun hnil => hlonger (by simp [hnil])
        exact takes_floating hdecimal.mem (Or.inl (List.mem_append_right _ hmem))
  · have hdecimal := greedy_decimal hdigits hgreedy hexponent
    rw [List.append_nil] at hdecimal
    refine ⟨whole ++ point, rest, rfl, hlongest hdecimal.isLongestPrefix, ?_⟩
    rw [hmark] at hread
    rw [hread]
    dsimp only
    rw [← List.drop_drop, List.drop_left, if_pos hzero]
    refine takes_fault rfl ?_ (Or.inr hnext)
    have hpositive := List.length_pos_iff.2 hne
    rw [List.length_append]
    omega
  · have hdecimal := greedy_decimal hdigits hgreedy hexponent
    refine ⟨whole ++ point ++ power, rest, (List.append_assoc ..).symm, ?_, ?_⟩
    · have hfront := hdecimal.isLongestPrefix
      rw [List.append_assoc (whole ++ point)] at hfront
      exact hlongest hfront
    · rw [hmark] at hread
      rw [hread]
      dsimp only
      rw [← List.drop_drop, List.drop_left, if_neg hpos, Nat.add_assoc, hlength,
        ← List.length_append, ← List.append_assoc (whole ++ point)]
      exact takes_floating hdecimal.mem (Or.inr (he.imp (List.mem_append_right _)
        (List.mem_append_right _)))

/-- Where a digit stands, what is read as a number is the longest literal. -/
theorem exists_takes (hdigit : ∃ d ∈ cs.head?, d.isDigit = true) :
    ∃ literal rest, cs = literal ++ rest ∧ IsLongestPrefix literals literal cs ∧
      Takes literal rest (readNumber cs) := by
  cases hhex : hasHexPrefix cs with
  | false => exact exists_takes_decimal hdigit hhex
  | true =>
      have hread : readNumber cs = readHexadecimal cs := by rw [readNumber, if_pos hhex]
      rw [hread]
      rw [hasHexPrefix, Bool.or_eq_true, List.isPrefixOf_iff_prefix,
        List.isPrefixOf_iff_prefix] at hhex
      rcases hhex with ⟨more, rfl⟩ | ⟨more, rfl⟩
      · exact exists_takes_hexadecimal (Or.inl rfl) more
      · exact exists_takes_hexadecimal (Or.inr rfl) more

end Longest
end Number

/-! ## Numbers of a file -/

/-- Digits do not begin words. -/
theorem isWordStart_of_isDigit {c : Char} (hdigit : c.isDigit = true) : isWordStart c = false := by
  have hcode : c.toNat < 128 := by
    simp only [Char.isDigit, Bool.and_eq_true, decide_eq_true_eq] at hdigit
    exact Nat.lt_of_le_of_lt hdigit.2 (by decide)
  have hall : ∀ n < 128, (Char.ofNat n).isDigit = true → isWordStart (Char.ofNat n) = false := by
    decide +kernel
  have hc := hall c.toNat hcode
  rw [Char.ofNat_toNat] at hc
  exact hc hdigit

/-- A lexical fault is reported with its code where it was found. -/
theorem LexicalFault.main_report (fault : LexicalFault) (file : File) (p : Position)
    (distance : Nat) :
    (fault.report file p distance).main.code = some fault.code ∧
      (fault.report file p distance).main.excerpt = file.charExcerpt (p.right distance) := by
  cases fault <;> exact ⟨rfl, rfl⟩

namespace File

open Number

/-- Where a digit stands, there is a longest literal of a number.  It is read as a token if no word
character follows and it is no octal number with a digit 8 or 9, and what is read is this
literal with the kind it is written as.  If nothing is read, the fault is on the line, behind the
digit. -/
theorem tokenAt_number (file : File) (c : Cursor file) {digit : Char}
    (hhead : c.rest.head? = some digit) (hdigit : digit.isDigit = true) :
    ∃ literal, IsLongestPrefix literals literal c.rest ∧
      ((∃ t, (file.tokenAt c).outcome = .ok t) ↔
        (∀ next ∈ (c.rest.drop literal.length).head?, isWordPart next = false) ∧
          ¬IsBadOctal literal) ∧
      (∀ t, (file.tokenAt c).outcome = .ok t →
        t = ⟨kindOf literal, String.ofList literal, file.stretch c.position literal.length⟩ ∧
          (file.tokenAt c).stop = c.position.right literal.length) ∧
      ∀ d, (file.tokenAt c).outcome = .error d →
        d.main.code = some .malformedNumber ∧
          ∃ distance, 0 < distance ∧ distance ≤ c.rest.length ∧
            d.main.excerpt = file.charExcerpt (c.position.right distance) := by
  obtain ⟨literal, rest, hrest, hlongest, htakes⟩ :=
    @exists_takes c.rest ⟨digit, hhead, hdigit⟩
  have hread : readToken c.rest = readNumber c.rest := by
    obtain ⟨more, hmore⟩ := List.head?_eq_some_iff.1 hhead
    rw [hmore, readToken, if_neg (by simp [isWordStart_of_isDigit hdigit]), if_pos hdigit]
  rw [← hread] at htakes
  have hdrop : c.rest.drop literal.length = rest := by rw [hrest, List.drop_left]
  refine ⟨literal, hlongest, ?_, ?_, ?_⟩
  · rw [hdrop, ← htakes.ok_iff, tokenAt]
    constructor
    · rintro ⟨t, ht⟩
      dsimp only at ht
      split at ht
      · next kind hkind => exact ⟨kind, hkind⟩
      · cases ht
    · rintro ⟨kind, hkind⟩
      simp only [hkind]
      exact ⟨_, rfl⟩
  · intro t ht
    rw [tokenAt] at ht ⊢
    dsimp only at ht ⊢
    split at ht
    · next kind hkind =>
        obtain ⟨rfl, hlength⟩ := htakes.ok kind hkind
        cases ht
        rw [hlength, Cursor.textAhead, hrest, List.take_left]
        exact ⟨rfl, rfl⟩
    · cases ht
  · intro d hd
    rw [tokenAt] at hd
    dsimp only at hd
    split at hd
    · cases hd
    · next fault distance hfault =>
        obtain ⟨hcode, hpos⟩ := htakes.error fault distance hfault
        cases hd
        exact ⟨(fault.main_report file _ distance).1.trans (congrArg some hcode), distance, hpos,
          distance_le_of_readToken hfault, (fault.main_report file _ distance).2⟩

/-- A number that begins with 0 and has a 9, but a point and an exponent too, is read up to the
sign behind its exponent. -/
theorem tokenAt_number_leadingZero :
    let file := ofText "a" "x = 09.5e1+2"
    let c := file.cursor ⟨0, 4⟩
    c.rest.head? = some '0' ∧ '0'.isDigit = true ∧
      IsLongestPrefix literals "09.5e1".toList "09.5e1+2".toList ∧
      (file.tokenAt c).outcome = .ok ⟨.float, "09.5e1", file.stretch ⟨0, 4⟩ 6⟩ ∧
      (file.tokenAt c).stop = ⟨0, 10⟩ := by
  intro file c
  have hhead : c.rest.head? = some '0' := by decide +kernel
  have hrest : c.rest = "09.5e1+2".toList := by decide +kernel
  have htoken : (file.tokenAt c).outcome = .ok ⟨.float, "09.5e1", file.stretch ⟨0, 4⟩ 6⟩ := by
    decide +kernel
  obtain ⟨literal, hlongest, -, hok, -⟩ := tokenAt_number file c hhead (by decide)
  obtain ⟨htext, hstop⟩ := hok _ htoken
  have hliteral : "09.5e1".toList = literal := by
    have hsame : "09.5e1" = String.ofList literal := congrArg Token.text htext
    rw [hsame, String.toList_ofList]
  rw [← hliteral] at hlongest hstop
  exact ⟨hhead, by decide, hrest ▸ hlongest, htoken, hstop⟩

end File
end Kiln
