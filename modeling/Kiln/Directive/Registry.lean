import Kiln.NameTable
import Kiln.Text.Escape

/-!
# Registries of directives

A registry says which directive names are known and which of the two kinds of
directive each of them introduces.
-/

namespace Kiln

/-- What a directive name introduces. -/
inductive DirectiveKind where
  /-- The inclusion of a file. -/
  | inclusion
  /-- A block of lines in another language. -/
  | inlineBlock
  deriving DecidableEq

/-- The known directive names. -/
abbrev Registry := NameTable DirectiveKind

namespace Registry

/-- The names `include` and `inline`. -/
def builtin : Registry :=
  (NameTable.empty.insert "include" .inclusion).insert "inline" .inlineBlock

/-- The registry with its names, for traces. -/
def trace (registry : Registry) : String :=
  "DirectiveRegistry \x7b names: [" ++ ", ".intercalate (registry.names.map quoted) ++ "] \x7d"

end Registry
end Kiln
