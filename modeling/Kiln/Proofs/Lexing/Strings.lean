import Kiln.Proofs.Lexing.LongestMatch
import Kiln.Proofs.Lexing.Spelling
import Kiln.Proofs.Safety.Bounds

/-!
# Strings are escaped one-line forms

A string literal is a quote, characters each of which stands for itself or is escaped by a
backslash, and a quote.  No literal is the beginning of another one, so that at most one begins
at a place, and this one is read whatever follows.  Where none begins on the line, the report
points at the end of the line and at the opening quote; the lines below are not looked at.
-/

open scoped Computability

namespace Kiln
namespace StringLiteral

/-! ## Literals -/

/-- A character that stands for itself. -/
def plain : Language Char := oneOf fun c => c != '"' && c != '\\'

/-- A backslash and the character that it escapes, whatever that is. -/
def escape : Language Char := oneOf (· == '\\') * oneOf fun _ => true

/-- What stands behind the opening quote, the closing one included. -/
def tails : Language Char := (plain + escape)∗ * oneOf (· == '"')

/-- The literals of strings. -/
def literals : Language Char := oneOf (· == '"') * tails

section Tails

variable {word piece rest cs : List Char} {count : Nat}

theorem quote_mem_tails : ['"'] ∈ tails :=
  Language.append_mem_mul (Language.nil_mem_kstar _) (singleton_mem_oneOf (beq_self_eq_true '"'))

theorem append_mem_tails (hpiece : piece ∈ plain + escape) (h : word ∈ tails) :
    piece ++ word ∈ tails := by
  obtain ⟨body, ⟨pieces, rfl, hpieces⟩, close, hclose, rfl⟩ := Language.mem_mul.1 h
  rw [← List.append_assoc, ← List.flatten_cons]
  exact Language.append_mem_mul ⟨_, rfl, List.forall_mem_cons.2 ⟨hpiece, hpieces⟩⟩ hclose

/-- What stands behind the opening quote of a literal is read up to its end. -/
theorem stringTail?_of_mem_tails (h : word ∈ tails) : stringTail? word = some word.length := by
  obtain ⟨body, ⟨pieces, rfl, hpieces⟩, close, ⟨quote, hquote, rfl⟩, rfl⟩ := Language.mem_mul.1 h
  rw [beq_iff_eq.1 hquote]
  clear h
  induction pieces with
  | nil => rfl
  | cons piece pieces ih =>
      rw [List.forall_mem_cons] at hpieces
      have hbehind := ih hpieces.2
      rw [List.flatten_cons, List.append_assoc]
      rcases hpieces.1 with ⟨c, hc, rfl⟩ | hescape
      · rw [Bool.and_eq_true, bne_iff_ne, bne_iff_ne] at hc
        rw [List.singleton_append, stringTail?_cons hc.1 hc.2, hbehind]
        rfl
      · obtain ⟨backslash, ⟨b, hb, rfl⟩, escaped, ⟨c, -, rfl⟩, rfl⟩ := Language.mem_mul.1 hescape
        rw [beq_iff_eq.1 hb]
        show (stringTail? (pieces.flatten ++ ['"'])).map (· + 2) = _
        rw [hbehind]
        rfl

/-- What is read behind an opening quote is what stands there in a literal. -/
theorem exists_mem_tails_of_stringTail? (h : stringTail? cs = some count) :
    ∃ word rest, cs = word ++ rest ∧ word.length = count ∧ word ∈ tails := by
  fun_induction stringTail? cs generalizing count with
  | case1 => cases h
  | case2 => cases h
  | case3 rest =>
      cases h
      exact ⟨['"'], rest, rfl, rfl, quote_mem_tails⟩
  | case4 c cs ih =>
      obtain ⟨inner, hinner, rfl⟩ := Option.map_eq_some_iff.1 h
      obtain ⟨word, rest, rfl, hlength, hword⟩ := ih hinner
      have hescape : ['\\', c] ∈ escape :=
        Language.mem_mul.2 ⟨['\\'], ⟨'\\', rfl, rfl⟩, [c], ⟨c, rfl, rfl⟩, rfl⟩
      exact ⟨['\\', c] ++ word, rest, rfl, by simp [hlength],
        append_mem_tails (Or.inr hescape) hword⟩
  | case5 c cs hlone hquote hescape ih =>
      obtain ⟨inner, hinner, rfl⟩ := Option.map_eq_some_iff.1 h
      obtain ⟨word, rest, rfl, hlength, hword⟩ := ih hinner
      have hnotEscape : c ≠ '\\' := by
        intro hc
        cases hcs : word ++ rest with
        | nil => exact hlone hc hcs
        | cons d ds => exact hescape d ds hc hcs
      have hplain : [c] ∈ plain :=
        ⟨c, by rw [Bool.and_eq_true, bne_iff_ne, bne_iff_ne]; exact ⟨hquote, hnotEscape⟩, rfl⟩
      exact ⟨[c] ++ word, rest, rfl, by simp [hlength], append_mem_tails (Or.inl hplain) hword⟩

end Tails

/-! ## Readings -/

section Readings

variable {literal other cs : List Char}

/-- A literal is read to its end, whatever follows. -/
theorem readString_of_mem (h : literal ∈ literals) (hfront : literal <+: cs) :
    readString cs = .token literal.length .string := by
  obtain ⟨rest, rfl⟩ := hfront
  obtain ⟨quote, tail, rfl, -, htail⟩ := accept_of_mem_oneOf_mul h
  rw [List.cons_append, readString, List.tail_cons,
    stringTail?_append (stringTail?_of_mem_tails htail), List.length_cons]
  exact congrArg (Reading.token · .string) (Nat.add_comm 1 tail.length)

/-- At most one literal begins at a place. -/
theorem eq_of_prefix (h : literal ∈ literals) (hfront : literal <+: cs)
    (hother : other ∈ literals) (hotherFront : other <+: cs) : other = literal := by
  have hlength : other.length = literal.length := by
    have hread := readString_of_mem hother hotherFront
    rw [readString_of_mem h hfront] at hread
    exact (congrArg Reading.length hread).symm
  exact (List.prefix_of_prefix_length_le hotherFront hfront
    (Nat.le_of_eq hlength)).eq_of_length hlength

/-- Behind a quote with which no literal begins, reading goes to the end of the line. -/
theorem readString_of_not_prefix (h : ∀ literal ∈ literals, ¬literal <+: '"' :: cs) :
    readString ('"' :: cs) = .stuck ('"' :: cs).length .unterminatedString := by
  rw [readString, List.tail_cons]
  cases hcount : stringTail? cs with
  | none => rfl
  | some count =>
      obtain ⟨word, rest, rfl, -, hword⟩ := exists_mem_tails_of_stringTail? hcount
      have hliteral : '"' :: word ∈ literals :=
        Language.mem_mul.2 ⟨['"'], ⟨'"', rfl, rfl⟩, word, hword, rfl⟩
      exact absurd (List.prefix_append ('"' :: word) rest) (h _ hliteral)

end Readings
end StringLiteral

theorem readToken_quote (cs : List Char) : readToken ('"' :: cs) = readString ('"' :: cs) := by
  have hstart : isWordStart '"' = false := by decide +kernel
  simp [readToken, hstart]

/-! ## Strings of a file -/

namespace File

open StringLiteral

/-- The token at a position is read from its line alone. -/
theorem tokenAt_of_line_eq {file other : File} {p : Position} (hname : other.name = file.name)
    (hline : other.line p.line = file.line p.line) :
    other.tokenAt (other.cursor p) = file.tokenAt (file.cursor p) := by
  have hlineAt : other.lineAt p = file.lineAt p := hline
  have hrest : (other.cursor p).rest = (file.cursor p).rest := by
    show other.rest p = file.rest p
    rw [rest, rest, hlineAt]
  have hstretch : ∀ distance count : Nat,
      other.stretch (p.right distance) count = file.stretch (p.right distance) count := by
    intro distance count
    show Excerpt.ofHighlight other.name (other.lineAt p) _ =
      .ofHighlight file.name (file.lineAt p) _
    rw [hname, hlineAt]
  have hchar : ∀ distance : Nat,
      other.charExcerpt (p.right distance) = file.charExcerpt (p.right distance) := by
    intro distance
    have hend : other.atLineEnd (p.right distance) = file.atLineEnd (p.right distance) := by
      show decide ((other.lineAt p).length ≤ _) = decide ((file.lineAt p).length ≤ _)
      rw [hlineAt]
    rw [charExcerpt, charExcerpt, hend, pointAt, pointAt, hstretch, hstretch]
  have hreport : ∀ distance (fault : LexicalFault),
      fault.report other p distance = fault.report file p distance := by
    intro distance fault
    have hopening : other.charExcerpt p = file.charExcerpt p := hchar 0
    rw [LexicalFault.report, LexicalFault.report, hchar, hopening]
  simp only [tokenAt, Cursor.textAhead, hrest, position_cursor, hreport]
  rw [show other.stretch p = file.stretch p from funext (hstretch 0)]

/-- Where a quote stands, a token is read if and only if a literal begins there.  Only one can
begin there, and what is read is this literal.  If none does, the report is on the end of
the line, with a note on the quote.  In any case no other line is read. -/
theorem tokenAt_string (file : File) (c : Cursor file) (hhead : c.rest.head? = some '"') :
    ((∃ t, (file.tokenAt c).outcome = .ok t) ↔ ∃ literal ∈ literals, literal <+: c.rest) ∧
    (∀ literal ∈ literals, literal <+: c.rest →
      (∀ other ∈ literals, other <+: c.rest → other = literal) ∧
        file.tokenAt c =
          ⟨.ok ⟨.string, String.ofList literal, file.stretch c.position literal.length⟩,
            c.position.right literal.length⟩) ∧
    ((∀ literal ∈ literals, ¬literal <+: c.rest) →
      file.tokenAt c =
        ⟨.error (((Diagnostic.error .unterminatedString "unterminated string literal"
            (file.pointAt (file.lineEnd c.position.line))).withNote
              "expected `\"` before the end of the line").withRelated
                (.note "string starts here" (file.stretch c.position 1))),
          file.lineEnd c.position.line⟩) ∧
    ∀ other : File, other.name = file.name →
      other.line c.position.line = file.line c.position.line →
        other.tokenAt (other.cursor c.position) = file.tokenAt c := by
  obtain ⟨more, hmore⟩ := List.head?_eq_some_iff.1 hhead
  have hread : readToken c.rest = readString c.rest := by rw [hmore, readToken_quote]
  have hok : ∀ literal ∈ literals, literal <+: c.rest → file.tokenAt c =
      ⟨.ok ⟨.string, String.ofList literal, file.stretch c.position literal.length⟩,
        c.position.right literal.length⟩ := by
    intro literal hliteral hfront
    rw [tokenAt, hread, readString_of_mem hliteral hfront, Cursor.textAhead]
    simp only [Reading.token, ← List.prefix_iff_eq_take.1 hfront]
  have herror : (∀ literal ∈ literals, ¬literal <+: c.rest) → file.tokenAt c =
      ⟨.error (LexicalFault.unterminatedString.reportAt
        (file.pointAt (file.lineEnd c.position.line)) (file.stretch c.position 1)),
        file.lineEnd c.position.line⟩ := by
    intro hnone
    have hrest : file.rest c.position = '"' :: more := c.rest_eq ▸ hmore
    have hend : c.position.right c.rest.length = file.lineEnd c.position.line := by
      have hcolumn := column_lt_of_charAt (charAt_of_rest hrest)
      rw [c.rest_eq, length_rest, Position.right, Nat.add_sub_cancel' (Nat.le_of_lt hcolumn)]
      rfl
    have hplace : file.charExcerpt (file.lineEnd c.position.line) =
        file.pointAt (file.lineEnd c.position.line) :=
      if_pos (atLineEnd_of_rest (rest_lineEnd file _))
    have hopening : file.charExcerpt c.position = file.stretch c.position 1 :=
      if_neg (Bool.eq_false_iff.1 (atLineEnd_of_rest_cons hrest))
    rw [hmore] at hnone
    rw [tokenAt, hread, hmore, readString_of_not_prefix hnone, ← hmore]
    simp only [Reading.stuck, LexicalFault.report, hend, hplace, hopening]
  refine ⟨⟨?_, ?_⟩, fun literal hliteral hfront => ⟨?_, hok literal hliteral hfront⟩, herror, ?_⟩
  · rintro ⟨t, ht⟩
    by_contra hnone
    rw [herror fun literal hliteral hfront => hnone ⟨literal, hliteral, hfront⟩] at ht
    cases ht
  · rintro ⟨literal, hliteral, hfront⟩
    rw [hok literal hliteral hfront]
    exact ⟨_, rfl⟩
  · exact fun other hother hotherFront => eq_of_prefix hliteral hfront hother hotherFront
  · intro other hname hline
    rw [tokenAt_of_line_eq hname hline]
    exact congrArg file.tokenAt (Cursor.ext rfl)

/-- Within the quotes of this literal stand an escaped quote and, at its end, an escaped
backslash. -/
theorem tokenAt_string_escapes :
    let file := ofText "a" "x = \"a\\\"b\\\\\"c"
    let c := file.cursor ⟨0, 4⟩
    c.rest.head? = some '"' ∧
      ∃ literal ∈ literals, literal <+: c.rest ∧ String.ofList literal = "\"a\\\"b\\\\\"" ∧
        (file.tokenAt c).stop = ⟨0, 12⟩ := by
  intro file c
  have hhead : c.rest.head? = some '"' := by decide +kernel
  have htoken : (file.tokenAt c).outcome =
      .ok ⟨.string, "\"a\\\"b\\\\\"", file.stretch ⟨0, 4⟩ 8⟩ := by decide +kernel
  obtain ⟨hiff, hunique, -⟩ := tokenAt_string file c hhead
  obtain ⟨literal, hliteral, hfront⟩ := hiff.1 ⟨_, htoken⟩
  have hread := (hunique literal hliteral hfront).2
  rw [hread, Except.ok.injEq, Token.mk.injEq] at htoken
  have hlength : literal.length = 8 := by
    have hlist := congrArg String.length htoken.2.1
    rw [String.length_ofList] at hlist
    exact hlist
  refine ⟨hhead, literal, hliteral, hfront, htoken.2.1, ?_⟩
  rw [hread]
  simp only [hlength]
  rfl

end File
end Kiln
