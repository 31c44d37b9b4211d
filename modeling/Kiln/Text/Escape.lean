import Kiln.Text.Visible

/-!
# Escapes in messages

A character that cannot be shown as it stands is written as an escape: a short
one for the usual controls, quotes and the backslash, and its code point in
lower-case hexadecimal otherwise.
-/

namespace Kiln

/-- A code point written in braces, in lower-case hexadecimal. -/
def codePointEscape (c : Char) : List Char :=
  ['\\', 'u', '{'] ++ Nat.toDigits 16 c.toNat ++ ['}']

/-- A character between double quotes. -/
def escapeInText (c : Char) : List Char :=
  match c with
  | '\x00' => ['\\', '0']
  | '\t' => ['\\', 't']
  | '\r' => ['\\', 'r']
  | '\n' => ['\\', 'n']
  | '"' => ['\\', '"']
  | '\\' => ['\\', '\\']
  | c => if isVisible c then [c] else codePointEscape c

/-- A character quoted on its own, where the apostrophe is escaped too. -/
def escapeAlone (c : Char) : List Char :=
  if c = '\'' then ['\\', '\''] else escapeInText c

/-- A text between double quotes. -/
def quoted (text : String) : String :=
  String.ofList ('"' :: text.toList.flatMap escapeInText ++ ['"'])

end Kiln
