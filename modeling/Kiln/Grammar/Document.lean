import Kiln.Grammar.Function
import Kiln.Items

/-!
# Parsing documents

A document is functions and directives in any order.  `Document.ofItems` reads
one from items, `File.parse` from a file; at the end of the file a fault shows
the lines that lead up to it.
-/

namespace Kiln

/-- The declarations that items are made of. -/
def takeDeclarations (items : List Item) : Except SyntaxFault (List Declaration) :=
  match items with
  | [] => .ok []
  | .directive d :: rest => (takeDeclarations rest).map (.directive d :: ·)
  | .token t :: rest =>
    if t.isKeyword .function then
      match _hfunction : takeFunction (.token t :: rest) with
      | .error fault => .error fault
      | .ok (f, after) => (takeDeclarations after).map (.function f :: ·)
    else .error ⟨.declaration, .token t :: rest⟩
termination_by items.length
decreasing_by
  · exact Nat.lt_succ_self _
  · exact consumes_takeFunction.length_lt _hfunction

/-- The document that items are made of. -/
def Document.ofItems (items : List Item) : Except SyntaxFault Document :=
  (takeDeclarations items).map Document.mk

namespace File

/-- How many lines are shown above the end of a file. -/
def linesBeforeEnd : Nat := 2

/-- The end of the file and the lines that lead up to it. -/
def endExcerpt (file : File) : Excerpt :=
  file.surround file.endPosition (file.pointAt file.endPosition) linesBeforeEnd 0

/-- The document made of the items of a file. -/
def documentOfItems (file : File) (items : List Item) : Except Diagnostic Document :=
  (Document.ofItems items).mapError fun fault => fault.report file.endExcerpt

/-- Reads the document of a file. -/
def parse (registry : Registry) (file : File) : Except Diagnostic Document :=
  (file.items registry).bind file.documentOfItems

end File
end Kiln
