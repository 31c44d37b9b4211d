import Kiln.Text.Ranges

/-!
# Blanks

A blank is a code point with the property White_Space: the ASCII tab, line
feed, vertical tab, form feed, carriage return and space, next line, the no-break
space and the spaces and separators of general punctuation.

`words` cuts a text at its blanks; `trimmedLength` counts the characters before
the blanks it ends in.
-/

namespace Kiln

/-- The code points with the property White_Space. -/
def blankRanges : CodeRanges :=
  [
    (0x0009, 0x000D), (0x0020, 0x0020), (0x0085, 0x0085), (0x00A0, 0x00A0), (0x1680, 0x1680),
    (0x2000, 0x200A), (0x2028, 0x2029), (0x202F, 0x202F), (0x205F, 0x205F), (0x3000, 0x3000)
  ]

/-- A blank of any script. -/
def isBlank (c : Char) : Bool :=
  blankRanges.holds c

/-- The maximal runs of characters other than blanks, the run read so far being
given in reverse. -/
def wordsAfter (run : List Char) : List Char → List (List Char)
  | [] => if run.isEmpty then [] else [run.reverse]
  | c :: cs =>
    if isBlank c then
      if run.isEmpty then wordsAfter [] cs else run.reverse :: wordsAfter [] cs
    else wordsAfter (c :: run) cs

/-- The blank-separated words of a text. -/
def words (cs : List Char) : List (List Char) :=
  wordsAfter [] cs

/-- How many characters a text has before the blanks it ends in. -/
def trimmedLength (cs : List Char) : Nat :=
  cs.length - (cs.reverse.takeWhile isBlank).length

end Kiln
