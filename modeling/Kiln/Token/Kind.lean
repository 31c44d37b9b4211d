/-!
# Kinds of tokens

The keywords, operators and punctuation marks of the language with their
spellings, and the kinds a token can have.
-/

namespace Kiln

/-- The reserved words. -/
inductive Keyword where
  /-- Begins a function: `fun`. -/
  | function
  /-- Begins a statement that returns values: `return`. -/
  | yield
  /-- Reserved for conditions: `if`. -/
  | branch
  /-- Reserved for conditions: `else`. -/
  | otherwise
  /-- Reserved for repetition: `while`. -/
  | loop
  /-- Reserved for variables: `var`. -/
  | binding
  deriving DecidableEq

namespace Keyword

/-- Every keyword. -/
def all : List Keyword := [.function, .yield, .branch, .otherwise, .loop, .binding]

/-- The spelling of a keyword. -/
def chars : Keyword → List Char
  | .function => ['f', 'u', 'n']
  | .yield => ['r', 'e', 't', 'u', 'r', 'n']
  | .branch => ['i', 'f']
  | .otherwise => ['e', 'l', 's', 'e']
  | .loop => ['w', 'h', 'i', 'l', 'e']
  | .binding => ['v', 'a', 'r']

/-- The spelling of a keyword as a string. -/
def text (k : Keyword) : String := String.ofList k.chars

/-- The name of a keyword in token labels. -/
def label : Keyword → String
  | .function => "Fun"
  | .yield => "Return"
  | .branch => "If"
  | .otherwise => "Else"
  | .loop => "While"
  | .binding => "Var"

/-- The keyword with a spelling; case matters. -/
def ofChars? (word : List Char) : Option Keyword :=
  all.find? fun k => k.chars == word

end Keyword

/-- The operators, among them some that no expression has yet. -/
inductive Operator where
  | logicalOr
  | logicalAnd
  | logicalNot
  | bitOr
  | bitXor
  | bitAnd
  | bitNot
  | shiftLeft
  | shiftRight
  | equal
  | notEqual
  | less
  | lessEqual
  | greater
  | greaterEqual
  | plus
  | minus
  | times
  | divide
  | remainder
  | increment
  | decrement
  | assign
  | plusAssign
  | minusAssign
  | timesAssign
  | divideAssign
  | remainderAssign
  | andAssign
  | orAssign
  | xorAssign
  | shiftLeftAssign
  | shiftRightAssign
  deriving DecidableEq

namespace Operator

/-- The spelling of an operator. -/
def chars : Operator → List Char
  | .logicalOr => ['|', '|']
  | .logicalAnd => ['&', '&']
  | .logicalNot => ['!']
  | .bitOr => ['|']
  | .bitXor => ['^']
  | .bitAnd => ['&']
  | .bitNot => ['~']
  | .shiftLeft => ['<', '<']
  | .shiftRight => ['>', '>']
  | .equal => ['=', '=']
  | .notEqual => ['!', '=']
  | .less => ['<']
  | .lessEqual => ['<', '=']
  | .greater => ['>']
  | .greaterEqual => ['>', '=']
  | .plus => ['+']
  | .minus => ['-']
  | .times => ['*']
  | .divide => ['/']
  | .remainder => ['%']
  | .increment => ['+', '+']
  | .decrement => ['-', '-']
  | .assign => ['=']
  | .plusAssign => ['+', '=']
  | .minusAssign => ['-', '=']
  | .timesAssign => ['*', '=']
  | .divideAssign => ['/', '=']
  | .remainderAssign => ['%', '=']
  | .andAssign => ['&', '=']
  | .orAssign => ['|', '=']
  | .xorAssign => ['^', '=']
  | .shiftLeftAssign => ['<', '<', '=']
  | .shiftRightAssign => ['>', '>', '=']

/-- The spelling of an operator as a string. -/
def text (o : Operator) : String := String.ofList o.chars

/-- The name of an operator in token labels. -/
def label : Operator → String
  | .logicalOr => "Or"
  | .logicalAnd => "And"
  | .logicalNot => "Not"
  | .bitOr => "BitOr"
  | .bitXor => "BitXor"
  | .bitAnd => "BitAnd"
  | .bitNot => "BitNot"
  | .shiftLeft => "Shl"
  | .shiftRight => "Shr"
  | .equal => "Eq"
  | .notEqual => "NotEq"
  | .less => "Lt"
  | .lessEqual => "LtEq"
  | .greater => "Gt"
  | .greaterEqual => "GtEq"
  | .plus => "Add"
  | .minus => "Sub"
  | .times => "Mul"
  | .divide => "Div"
  | .remainder => "Mod"
  | .increment => "Increment"
  | .decrement => "Decrement"
  | .assign => "Assign"
  | .plusAssign => "AddAssign"
  | .minusAssign => "SubAssign"
  | .timesAssign => "MulAssign"
  | .divideAssign => "DivAssign"
  | .remainderAssign => "ModAssign"
  | .andAssign => "AndAssign"
  | .orAssign => "OrAssign"
  | .xorAssign => "XorAssign"
  | .shiftLeftAssign => "ShlAssign"
  | .shiftRightAssign => "ShrAssign"

/-- How tightly an operator binds its two operands, from 1 up; none for an
operator that cannot stand between operands. -/
def precedence? : Operator → Option Nat
  | .logicalOr => some 1
  | .logicalAnd => some 2
  | .bitOr => some 3
  | .bitXor => some 4
  | .bitAnd => some 5
  | .equal | .notEqual => some 6
  | .less | .lessEqual | .greater | .greaterEqual => some 7
  | .shiftLeft | .shiftRight => some 8
  | .plus | .minus => some 9
  | .times | .divide | .remainder => some 10
  | _ => none

end Operator

/-- The punctuation marks.  `hash` starts a directive and `quote` delimits an
include path; neither is a token outside directives. -/
inductive Punctuation where
  | leftParen
  | rightParen
  | leftBrace
  | rightBrace
  | leftBracket
  | rightBracket
  | comma
  | semicolon
  | colon
  | dot
  | ellipsis
  | arrow
  | question
  | hash
  | quote
  deriving DecidableEq

namespace Punctuation

/-- The spelling of a mark. -/
def chars : Punctuation → List Char
  | .leftParen => ['(']
  | .rightParen => [')']
  | .leftBrace => ['{']
  | .rightBrace => ['}']
  | .leftBracket => ['[']
  | .rightBracket => [']']
  | .comma => [',']
  | .semicolon => [';']
  | .colon => [':']
  | .dot => ['.']
  | .ellipsis => ['.', '.', '.']
  | .arrow => ['-', '>']
  | .question => ['?']
  | .hash => ['#']
  | .quote => ['"']

/-- The spelling of a mark as a string. -/
def text (p : Punctuation) : String := String.ofList p.chars

/-- The name of a mark in token labels. -/
def label : Punctuation → String
  | .leftParen => "LParen"
  | .rightParen => "RParen"
  | .leftBrace => "LBrace"
  | .rightBrace => "RBrace"
  | .leftBracket => "LBracket"
  | .rightBracket => "RBracket"
  | .comma => "Comma"
  | .semicolon => "Semicolon"
  | .colon => "Colon"
  | .dot => "Dot"
  | .ellipsis => "Ellipsis"
  | .arrow => "Arrow"
  | .question => "Question"
  | .hash => "Hash"
  | .quote => "Quote"

end Punctuation

/-- The base an integer literal is written in. -/
inductive Base where
  | decimal
  | octal
  | hexadecimal
  deriving DecidableEq

/-- The name of a base in token labels. -/
def Base.label : Base → String
  | .decimal => "Decimal"
  | .octal => "Octal"
  | .hexadecimal => "Hex"

/-- The kind of a token. -/
inductive Kind where
  | keyword (k : Keyword)
  | operator (o : Operator)
  | punctuation (p : Punctuation)
  | identifier
  | integer (base : Base)
  | float
  | string
  deriving DecidableEq

namespace Kind

/-- The name of a kind's category. -/
def name : Kind → String
  | .keyword _ => "Keyword"
  | .operator _ => "Operator"
  | .punctuation _ => "Punctuation"
  | .identifier => "Identifier"
  | .integer _ => "Integer"
  | .float => "Float"
  | .string => "String"

/-- The full name of a kind. -/
def label : Kind → String
  | .keyword k => "Keyword(" ++ k.label ++ ")"
  | .operator o => "Operator(" ++ o.label ++ ")"
  | .punctuation p => "Punctuation(" ++ p.label ++ ")"
  | .identifier => "Identifier"
  | .integer base => "Integer(" ++ base.label ++ ")"
  | .float => "Float"
  | .string => "String"

/-- Whether two kinds are of one category, whatever they stand for in it. -/
def sameCategory : Kind → Kind → Bool
  | .keyword _, .keyword _ => true
  | .operator _, .operator _ => true
  | .punctuation _, .punctuation _ => true
  | .identifier, .identifier => true
  | .integer _, .integer _ => true
  | .float, .float => true
  | .string, .string => true
  | _, _ => false

/-- Whether a token of the kind is an operand by itself. -/
def isOperand : Kind → Bool
  | .identifier | .integer _ | .float | .string => true
  | _ => false

/-- How tightly a token of the kind binds two operands, if it is an operator that
does. -/
def precedence? : Kind → Option Nat
  | .operator o => o.precedence?
  | _ => none

end Kind
end Kiln
