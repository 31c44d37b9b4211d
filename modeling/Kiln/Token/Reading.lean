import Kiln.Token.Kind

/-!
# Readings of a token

To read a token is to look at the code points that are left of a line and to say
how many of them belong to it and what kind it is.  A reading that fails says
how far it went, what is wrong and at which distance.
-/

namespace Kiln

/-- The written forms of a number. -/
inductive NumberForm where
  | hexadecimal
  | floating
  | octal
  | decimal
  deriving DecidableEq

/-- The name of a form in messages. -/
def NumberForm.description : NumberForm → String
  | .hexadecimal => "hexadecimal"
  | .floating => "floating-point"
  | .octal => "octal"
  | .decimal => "decimal"

/-- The kind of token a form gives. -/
def NumberForm.kind : NumberForm → Kind
  | .hexadecimal => .integer .hexadecimal
  | .floating => .float
  | .octal => .integer .octal
  | .decimal => .integer .decimal

/-- Why no token could be read. -/
inductive LexicalFault where
  /-- Nothing is left of the line. -/
  | endOfInput
  /-- No token begins with the character. -/
  | invalidCharacter (c : Char)
  /-- The character begins symbols, but none that stands here. -/
  | unknownSymbol (c : Char)
  /-- No digit follows the prefix of a hexadecimal number. -/
  | missingHexDigits
  /-- No digit follows the mark of an exponent. -/
  | missingExponentDigits
  /-- A digit of an octal number is greater than 7. -/
  | invalidOctalDigit (digit : Char)
  /-- A letter, numeral or underscore directly follows a number. -/
  | characterInNumber (c : Char) (form : NumberForm)
  /-- The line ends within a string. -/
  | unterminatedString
  deriving DecidableEq

/-- A reading that takes `length` code points.  A fault comes with its distance
from where the reading began. -/
structure Reading where
  length : Nat
  outcome : Except (LexicalFault × Nat) Kind

namespace Reading

/-- A token of a length and kind. -/
def token (length : Nat) (kind : Kind) : Reading := ⟨length, .ok kind⟩

/-- A fault at the code point that the reading has come to. -/
def stuck (length : Nat) (fault : LexicalFault) : Reading := ⟨length, .error (fault, length)⟩

/-- A fault at a code point that the reading has passed. -/
def faultAt (length distance : Nat) (fault : LexicalFault) : Reading :=
  ⟨length, .error (fault, distance)⟩

end Reading
end Kiln
