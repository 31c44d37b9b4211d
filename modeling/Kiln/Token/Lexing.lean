import Kiln.Token.Basic
import Kiln.Token.Number
import Kiln.Token.Symbol
import Kiln.Token.Text
import Kiln.Walk

/-!
# Tokens of a file

`readToken` reads the token that a text begins with, `File.tokenAt` the one at a
cursor of a file, and `File.tokens` those of a whole file.  A `#` is no token:
files with directives are read as items.
-/

namespace Kiln

/-- Reads the token that a text begins with. -/
def readToken (cs : List Char) : Reading :=
  match cs with
  | [] => .stuck 0 .endOfInput
  | c :: _ =>
    if isWordStart c then readWord cs
    else if c.isDigit then readNumber cs
    else if c = '"' then readString cs
    else if Symbol.isStart c then
      match Symbol.match? cs with
      | some symbol => .token symbol.chars.length symbol.kind
      | none => .stuck 0 (.unknownSymbol c)
    else .stuck 0 (.invalidCharacter c)

/-- A token is not empty. -/
theorem length_readToken_pos {cs : List Char} {kind : Kind}
    (h : (readToken cs).outcome = .ok kind) : 0 < (readToken cs).length := by
  cases cs with
  | nil => cases h
  | cons c cs =>
    simp only [readToken] at h ⊢
    split
    · exact length_readWord_pos (by assumption)
    · split
      · exact length_readNumber_pos (by assumption)
      · split
        · unfold readString
          split
          · simp only [Reading.token]
            omega
          · simp [Reading.stuck]
        · split
          · split
            · exact Symbol.length_pos_of_mem_table _
                (Symbol.mem_table_of_match? (by assumption))
            · simp_all [Reading.stuck]
          · simp_all [Reading.stuck]

namespace LexicalFault

/-- The code of a fault. -/
def code : LexicalFault → Code
  | .endOfInput => .unexpectedEnd
  | .invalidCharacter _ => .invalidCharacter
  | .unknownSymbol _ => .unknownSymbol
  | .missingHexDigits | .missingExponentDigits | .invalidOctalDigit _ | .characterInNumber _ _ =>
    .malformedNumber
  | .unterminatedString => .unterminatedString

/-- The wording of a fault. -/
def message : LexicalFault → String
  | .endOfInput => "unexpected end of input"
  | .invalidCharacter c => "invalid character `" ++ String.ofList (escapeAlone c) ++ "`"
  | .unknownSymbol c => "unknown symbol `" ++ c.toString ++ "`"
  | .missingHexDigits => "expected hexadecimal digits after `0x`"
  | .missingExponentDigits => "expected digits in exponent"
  | .invalidOctalDigit digit => "invalid digit `" ++ digit.toString ++ "` in octal literal"
  | .characterInNumber c form =>
    "invalid character `" ++ c.toString ++ "` in " ++ form.description ++ " literal"
  | .unterminatedString => "unterminated string literal"

/-- The report of a fault at a place in a token that begins at `opening`. -/
def reportAt (place opening : Excerpt) (fault : LexicalFault) : Diagnostic :=
  let d := Diagnostic.error fault.code fault.message place
  match fault with
  | .unterminatedString =>
    (d.withNote "expected `\"` before the end of the line").withRelated
      (.note "string starts here" opening)
  | _ => d

/-- The report of a fault at `distance` from where the reading began. -/
def report (file : File) (start : Position) (distance : Nat) (fault : LexicalFault) :
    Diagnostic :=
  fault.reportAt (file.charExcerpt (start.right distance)) (file.charExcerpt start)

end LexicalFault

namespace File

/-- The token at a cursor. -/
def tokenAt (file : File) (c : Cursor file) : Found Token :=
  let reading := readToken c.rest
  ⟨match reading.outcome with
    | .ok kind =>
      .ok ⟨kind, c.textAhead reading.length, file.stretch c.position reading.length⟩
    | .error (fault, distance) => .error (fault.report file c.position distance),
    c.position.right reading.length⟩

/-- Reading a token moves forward. -/
theorem tokenAt_advances (file : File) : file.Advances file.tokenAt := by
  intro c token _ h
  refine Or.inl ⟨rfl, ?_⟩
  have hkind : ∃ kind, (readToken c.rest).outcome = .ok kind := by
    simp only [tokenAt] at h
    split at h
    · exact ⟨_, by assumption⟩
    · cases h
  obtain ⟨kind, hkind⟩ := hkind
  have := length_readToken_pos hkind
  simp only [tokenAt, Position.right]
  omega

/-- The tokens of a file without directives. -/
def tokens (file : File) : Except Diagnostic (List Token) :=
  file.readAll file.tokenAt file.tokenAt_advances

end File
end Kiln
