import Kiln.Token.Kind

/-!
# Operator and punctuation symbols

`Symbol.table` lists the spelling of every operator and punctuation mark outside
directives, longer spellings first, so that the first entry that fits is the
longest one.
-/

namespace Kiln

/-- A spelling and the kind of token it stands for. -/
structure Symbol where
  chars : List Char
  kind : Kind
  deriving DecidableEq

namespace Symbol

/-- The symbol of an operator. -/
def ofOperator (o : Operator) : Symbol := ⟨o.chars, .operator o⟩

/-- The symbol of a punctuation mark. -/
def ofPunctuation (p : Punctuation) : Symbol := ⟨p.chars, .punctuation p⟩

/-- Every symbol, by decreasing length. -/
def table : List Symbol :=
  [
    ofOperator .shiftLeftAssign, ofOperator .shiftRightAssign, ofPunctuation .ellipsis,
    ofOperator .equal, ofOperator .notEqual, ofOperator .lessEqual, ofOperator .greaterEqual,
    ofOperator .logicalAnd, ofOperator .logicalOr, ofOperator .shiftLeft, ofOperator .shiftRight,
    ofOperator .plusAssign, ofOperator .minusAssign, ofOperator .timesAssign,
    ofOperator .divideAssign, ofOperator .remainderAssign, ofOperator .andAssign,
    ofOperator .orAssign, ofOperator .xorAssign, ofPunctuation .arrow, ofOperator .increment,
    ofOperator .decrement,
    ofOperator .assign, ofOperator .less, ofOperator .greater, ofOperator .logicalNot,
    ofOperator .plus, ofOperator .minus, ofOperator .times, ofOperator .divide,
    ofOperator .remainder, ofOperator .bitAnd, ofOperator .bitOr, ofOperator .bitXor,
    ofOperator .bitNot, ofPunctuation .leftParen, ofPunctuation .rightParen,
    ofPunctuation .leftBrace, ofPunctuation .rightBrace, ofPunctuation .leftBracket,
    ofPunctuation .rightBracket, ofPunctuation .comma, ofPunctuation .semicolon,
    ofPunctuation .colon, ofPunctuation .dot, ofPunctuation .question
  ]

/-- The first symbol of the table that a text begins with. -/
def match? (cs : List Char) : Option Symbol :=
  table.find? fun s => s.chars.isPrefixOf cs

/-- Whether a character can begin a symbol: ASCII punctuation, less what begins
identifiers, strings and directives. -/
def isStart (c : Char) : Bool :=
  let n := c.toNat
  let isPunctuation :=
    (0x21 ≤ n && n ≤ 0x2F) || (0x3A ≤ n && n ≤ 0x40) || (0x5B ≤ n && n ≤ 0x60) ||
      (0x7B ≤ n && n ≤ 0x7E)
  isPunctuation && c != '_' && c != '"' && c != '#'

/-- No symbol is empty. -/
theorem length_pos_of_mem_table : ∀ s ∈ table, 0 < s.chars.length := by decide

theorem mem_table_of_match? {cs : List Char} {s : Symbol} (h : match? cs = some s) :
    s ∈ table :=
  List.mem_of_find?_eq_some h

end Symbol
end Kiln
