import Kiln.Directive.Reading
import Kiln.Token.Lexing
import Kiln.Tree.Item

/-!
# Items of a file

A file is read into its tokens and directives, in source order.
-/

namespace Kiln

/-- Finds a piece and makes something of it. -/
def Found.map {α β : Type} (f : α → β) (found : Found α) : Found β :=
  ⟨found.outcome.map f, found.stop⟩

namespace File

/-- The item at a cursor: a directive if there is a hash, and a token otherwise. -/
def itemAt (registry : Registry) (file : File) (c : Cursor file) : Found Item :=
  if c.rest.head? = some '#' then (file.directiveAt registry c.position).map .directive
  else (file.tokenAt c).map .token

/-- Reading an item moves forward. -/
theorem itemAt_advances (registry : Registry) (file : File) :
    file.Advances (file.itemAt registry) := by
  intro c item hline h
  unfold itemAt at h ⊢
  split at h
  · next hhash =>
    rw [if_pos hhash]
    cases hd : (file.directiveAt registry c.position).outcome with
    | error d => simp [Found.map, hd, Except.map] at h
    | ok d => exact file.directiveAt_forward registry hd
  · next hhash =>
    rw [if_neg hhash]
    cases ht : (file.tokenAt c).outcome with
    | error d => simp [Found.map, ht, Except.map] at h
    | ok t => exact file.tokenAt_advances c t hline ht

/-- The items of a file. -/
def items (registry : Registry) (file : File) : Except Diagnostic (List Item) :=
  file.readAll (file.itemAt registry) (file.itemAt_advances registry)

end File
end Kiln
