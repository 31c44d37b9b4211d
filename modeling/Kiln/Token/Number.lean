import Kiln.Token.Word

/-!
# Numbers

A number begins with an ASCII digit and has one of four forms:

* hexadecimal: `0x` or `0X` and at least one hexadecimal digit;
* floating-point: digits with a point, further digits after it or none, and an
  exponent, at least one of point and exponent being there;
* octal: two or more digits of which the first is 0, none of them 8 or 9;
* decimal: digits.

It must not run straight into a letter, numeral or underscore.
-/

namespace Kiln

/-- Whether a character is a hexadecimal digit. -/
def isHexDigit (c : Char) : Bool :=
  c.isDigit || ('a' ≤ c && c ≤ 'f') || ('A' ≤ c && c ≤ 'F')

/-- The number of digits that a text begins with. -/
def digitCount (cs : List Char) : Nat :=
  (cs.takeWhile Char.isDigit).length

/-- The length of the fraction that a text begins with: a point and the digits
behind it. -/
def fractionLength : List Char → Nat
  | '.' :: cs => 1 + digitCount cs
  | _ => 0

/-- The length of the exponent that a text begins with, up to the digits, if there
is one: its mark and sign. -/
def exponentMark? : List Char → Option Nat
  | c :: cs =>
    if c = 'e' ∨ c = 'E' then
      match cs with
      | s :: _ => if s = '+' ∨ s = '-' then some 2 else some 1
      | [] => some 1
    else none
  | [] => none

/-- Whether a text begins with the prefix of a hexadecimal number. -/
def hasHexPrefix (cs : List Char) : Bool :=
  ['0', 'x'].isPrefixOf cs || ['0', 'X'].isPrefixOf cs

/-- Ends a number after `length` code points, unless a word character follows. -/
def closeNumber (cs : List Char) (length : Nat) (form : NumberForm) : Reading :=
  match cs[length]? with
  | some c =>
    if isWordPart c then .stuck length (.characterInNumber c form) else .token length form.kind
  | none => .token length form.kind

/-- Reads the hexadecimal number that a text begins with. -/
def readHexadecimal (cs : List Char) : Reading :=
  let digits := ((cs.drop 2).takeWhile isHexDigit).length
  if digits = 0 then .stuck 2 .missingHexDigits else closeNumber cs (2 + digits) .hexadecimal

/-- Ends a number without point and exponent after its digits: octal if it begins
with 0 and has more digits, and decimal otherwise. -/
def readInteger (cs : List Char) (length : Nat) : Reading :=
  if 1 < length ∧ cs.head? = some '0' then
    match (cs.take length).findIdx? fun c => '7' < c with
    | some distance =>
      .faultAt length distance (.invalidOctalDigit (cs.getD distance '8'))
    | none => closeNumber cs length .octal
  else closeNumber cs length .decimal

/-- Reads the number that a text begins with. -/
def readNumber (cs : List Char) : Reading :=
  if hasHexPrefix cs then readHexadecimal cs
  else
    let whole := digitCount cs
    let length := whole + fractionLength (cs.drop whole)
    match exponentMark? (cs.drop length) with
    | some mark =>
      let digits := digitCount (cs.drop (length + mark))
      if digits = 0 then .stuck (length + mark) .missingExponentDigits
      else closeNumber cs (length + mark + digits) .floating
    | none => if length = whole then readInteger cs whole else closeNumber cs length .floating

@[simp] theorem length_closeNumber (cs : List Char) (length : Nat) (form : NumberForm) :
    (closeNumber cs length form).length = length := by
  unfold closeNumber
  split
  · split <;> rfl
  · rfl

theorem length_readHexadecimal_pos (cs : List Char) : 0 < (readHexadecimal cs).length := by
  unfold readHexadecimal
  dsimp only
  split
  · exact Nat.two_pos
  · simp only [length_closeNumber]
    omega

@[simp] theorem length_readInteger (cs : List Char) (length : Nat) :
    (readInteger cs length).length = length := by
  unfold readInteger
  split
  · split <;> simp [Reading.faultAt]
  · simp

/-- A number that begins with a digit is not empty. -/
theorem length_readNumber_pos {c : Char} {cs : List Char} (hc : c.isDigit = true) :
    0 < (readNumber (c :: cs)).length := by
  have hwhole : 0 < digitCount (c :: cs) := by
    simp [digitCount, hc]
  unfold readNumber
  dsimp only
  split
  · exact length_readHexadecimal_pos _
  · split
    · split
      · simp only [Reading.stuck]
        omega
      · simp only [length_closeNumber]
        omega
    · split
      · simpa using hwhole
      · simp only [length_closeNumber]
        omega

end Kiln
