import Kiln.Token.Reading

/-!
# String literals

A string literal stands between double quotes on one line.  Within it a
backslash takes the code point behind it out of consideration, whatever that is.
-/

namespace Kiln

/-- How many code points of a text belong to a string whose opening quote is
passed, the closing quote included; none if the string is not closed. -/
def stringTail? : List Char → Option Nat
  | [] => none
  | ['\\'] => none
  | '"' :: _ => some 1
  | '\\' :: _ :: cs => (stringTail? cs).map (· + 2)
  | _ :: cs => (stringTail? cs).map (· + 1)

/-- Reads the string literal that a text begins with. -/
def readString (cs : List Char) : Reading :=
  match stringTail? cs.tail with
  | some count => .token (1 + count) .string
  | none => .stuck cs.length .unterminatedString

end Kiln
