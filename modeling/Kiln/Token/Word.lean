import Kiln.Text.Letter
import Kiln.Text.Numeral
import Kiln.Token.Reading

/-!
# Words

A word is a letter or underscore followed by letters, numerals and underscores.
It is a keyword if it is spelled like one and an identifier otherwise.
-/

namespace Kiln

/-- Whether a character begins a word. -/
def isWordStart (c : Char) : Bool :=
  isLetter c || c == '_'

/-- Whether a character is a letter or a numeral. -/
def isAlphanumeric (c : Char) : Bool :=
  isLetter c || isNumeral c

/-- Whether a character can stand in a word. -/
def isWordPart (c : Char) : Bool :=
  isAlphanumeric c || c == '_'

/-- Reads the word that a text begins with. -/
def readWord (cs : List Char) : Reading :=
  let word := cs.takeWhile isWordPart
  .token word.length <|
    match Keyword.ofChars? word with
    | some k => .keyword k
    | none => .identifier

theorem isWordPart_of_isWordStart {c : Char} (h : isWordStart c = true) :
    isWordPart c = true := by
  simp only [isWordStart, isWordPart, isAlphanumeric, Bool.or_eq_true] at *
  rcases h with h | h
  · exact Or.inl (Or.inl h)
  · exact Or.inr h

/-- A word is not empty. -/
theorem length_readWord_pos {c : Char} {cs : List Char} (h : isWordStart c = true) :
    0 < (readWord (c :: cs)).length := by
  simp [readWord, Reading.token, isWordPart_of_isWordStart h]

end Kiln
