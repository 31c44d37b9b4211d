import Kiln.Excerpt.Basic
import Kiln.Token.Kind

/-!
# Tokens

A token is the smallest piece of a program: its kind, its text as written, and
where it stands.  A token built for an expected tree stands nowhere.
-/

namespace Kiln

/-- A token.  String literals keep their quotes and escapes, numbers their
prefixes. -/
structure Token where
  kind : Kind
  text : String
  excerpt : Excerpt
  deriving DecidableEq

namespace Token

/-- A token that comes from no file. -/
def ofText (kind : Kind) (text : String) : Token := ⟨kind, text, .detached⟩

/-- The keyword itself. -/
def ofKeyword (k : Keyword) : Token := ofText (.keyword k) k.text

/-- The operator itself. -/
def ofOperator (o : Operator) : Token := ofText (.operator o) o.text

/-- The punctuation mark itself. -/
def ofPunctuation (p : Punctuation) : Token := ofText (.punctuation p) p.text

/-- The token without its place. -/
def detach (t : Token) : Token := ofText t.kind t.text

/-- The token with its full kind, quoted text and place, for traces. -/
def trace (t : Token) : String :=
  let shown := t.kind.label ++ "(" ++ quoted t.text ++ ")"
  match t.excerpt.position? with
  | some position => shown ++ " @ " ++ position
  | none => shown

end Token
end Kiln
