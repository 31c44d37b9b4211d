/-!
# Error codes

Every error has a code for tests and tools.  A code is written `E` and four
digits, the first of which stands for its category; it is not part of the printed
message.
-/

namespace Kiln

/-- What part of the work an error belongs to. -/
inductive Category where
  /-- The source could not be read. -/
  | io
  /-- The text holds no tokens as they have to be. -/
  | lexical
  /-- A directive is malformed, unknown or unfinished. -/
  | directive
  /-- The tokens do not follow the grammar. -/
  | syntactic
  /-- A tree differs from the expected one. -/
  | mismatch
  /-- A check of the meaning failed. -/
  | semantic
  deriving DecidableEq

/-- The name of a category. -/
def Category.label : Category → String
  | .io => "Io"
  | .lexical => "Lex"
  | .directive => "Directive"
  | .syntactic => "Syntax"
  | .mismatch => "Mismatch"
  | .semantic => "Semantic"

/-- The kinds of error. -/
inductive Code where
  | unreadableSource
  | invalidCharacter
  | unknownSymbol
  | malformedNumber
  | unterminatedString
  | misplacedDirective
  | missingDirectiveName
  | unknownDirective
  | missingPath
  | unclosedPath
  | mismatchedPathCloser
  | emptyPath
  | missingBlockTag
  | unclosedBlock
  | textAfterDirective
  | unexpectedToken
  | unexpectedEnd
  | missingExpression
  | nestedDirective
  | differentKind
  | missingChild
  | unexpectedChild
  | differentCount
  | differentValue
  | duplicateArgument
  | wrongReturnCount
  deriving DecidableEq

namespace Code

/-- Every code, in the order of the labels. -/
def all : List Code :=
  [.unreadableSource, .invalidCharacter, .unknownSymbol, .malformedNumber, .unterminatedString,
    .misplacedDirective, .missingDirectiveName, .unknownDirective, .missingPath, .unclosedPath,
    .mismatchedPathCloser, .emptyPath, .missingBlockTag, .unclosedBlock, .textAfterDirective,
    .unexpectedToken, .unexpectedEnd, .missingExpression, .nestedDirective, .differentKind,
    .missingChild, .unexpectedChild, .differentCount, .differentValue, .duplicateArgument,
    .wrongReturnCount]

/-- The written form of a code. -/
def label : Code → String
  | .unreadableSource => "E0001"
  | .invalidCharacter => "E1001"
  | .unknownSymbol => "E1002"
  | .malformedNumber => "E1003"
  | .unterminatedString => "E1004"
  | .misplacedDirective => "E2001"
  | .missingDirectiveName => "E2002"
  | .unknownDirective => "E2003"
  | .missingPath => "E2004"
  | .unclosedPath => "E2005"
  | .mismatchedPathCloser => "E2006"
  | .emptyPath => "E2007"
  | .missingBlockTag => "E2008"
  | .unclosedBlock => "E2009"
  | .textAfterDirective => "E2010"
  | .unexpectedToken => "E3001"
  | .unexpectedEnd => "E3002"
  | .missingExpression => "E3003"
  | .nestedDirective => "E3004"
  | .differentKind => "E4001"
  | .missingChild => "E4002"
  | .unexpectedChild => "E4003"
  | .differentCount => "E4004"
  | .differentValue => "E4005"
  | .duplicateArgument => "E5001"
  | .wrongReturnCount => "E5002"

/-- The code of a written form. -/
def ofLabel? (text : String) : Option Code :=
  all.find? fun code => code.label == text

/-- The category of a code. -/
def category : Code → Category
  | .unreadableSource => .io
  | .invalidCharacter | .unknownSymbol | .malformedNumber | .unterminatedString => .lexical
  | .misplacedDirective | .missingDirectiveName | .unknownDirective | .missingPath
  | .unclosedPath | .mismatchedPathCloser | .emptyPath | .missingBlockTag | .unclosedBlock
  | .textAfterDirective => .directive
  | .unexpectedToken | .unexpectedEnd | .missingExpression | .nestedDirective => .syntactic
  | .differentKind | .missingChild | .unexpectedChild | .differentCount | .differentValue =>
    .mismatch
  | .duplicateArgument | .wrongReturnCount => .semantic

end Code
end Kiln
