import Kiln.Check
import Kiln.Grammar.Document
import Mathlib.Data.List.Nodup
import Mathlib.Data.Prod.Lex
import Mathlib.Order.Bounds.Basic

/-!
# The first violation is reported

A check looks through the functions of a document one after the other, and through the arguments
or the statements of each of them.  What it finds is the first place at which something is wrong,
in the order of the functions and, within one, of its arguments or statements; it finds nothing
only if nothing is wrong anywhere.

Each of the two checks only has to be understood on one function (`FindsFirst`).
-/

namespace Kiln

/-! ## Wrong places -/

/-- The first wrong place of a function is found, if there is one, and told as it should be. -/
structure FindsFirst (find? : FunctionDecl → Option Violation) (Wrong : FunctionDecl → Nat → Prop)
    (Tells : FunctionDecl → Nat → Violation → Prop) : Prop where
  none : ∀ f, find? f = none → ∀ j, ¬Wrong f j
  some : ∀ f v, find? f = some v → ∃ j, IsLeast {j | Wrong f j} j ∧ Tells f j v

namespace FindsFirst

variable {find? : FunctionDecl → Option Violation} {Wrong : FunctionDecl → Nat → Prop}
  {Tells : FunctionDecl → Nat → Violation → Prop} {d : Document} {v : Violation}

theorem eq_none_iff (h : FindsFirst find? Wrong Tells) (f : FunctionDecl) :
    find? f = .none ↔ ∀ j, ¬Wrong f j := by
  refine ⟨h.none f, fun hnot => ?_⟩
  cases hf : find? f with
  | none => rfl
  | some v =>
      obtain ⟨j, hj, -⟩ := h.some f v hf
      exact absurd hj.1 (hnot j)

theorem findSome?_eq_none_iff (h : FindsFirst find? Wrong Tells) :
    d.functions.findSome? find? = .none ↔ ∀ f ∈ d.functions, ∀ j, ¬Wrong f j := by
  rw [List.findSome?_eq_none_iff]
  exact forall₂_congr fun f _ => h.eq_none_iff f

end FindsFirst

namespace FunctionDecl

/-! ## Names of arguments -/

/-- The names of the arguments. -/
def argumentNames (f : FunctionDecl) : List String := f.arguments.map fun a => a.name.text

end FunctionDecl

section Repetition

variable {seen : List Token} {as : List Argument} {first again : Token}

end Repetition

namespace FunctionDecl

variable {f : FunctionDecl} {k : Nat}

end FunctionDecl

/-! ## Lists of checks -/

namespace Check

end Check
end Kiln
