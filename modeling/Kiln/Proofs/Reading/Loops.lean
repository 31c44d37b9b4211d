/-!
# Loops

A loop takes one turn after the other.  `runFor` gives it a number of turns, and nothing comes
out if it has not ended by then.  A measure that every turn makes less bounds the turns that
are needed, and what every turn leaves alone is what comes out.
-/

namespace Kiln

variable {σ β : Type}

/-- The result of a loop if it ends within a number of turns.  A turn goes on in a further
state, or ends the loop with a result. -/
def runFor (turn : σ → σ ⊕ β) : Nat → σ → Option β
  | 0, _ => none
  | turns + 1, s =>
    match turn s with
    | .inl next => runFor turn turns next
    | .inr result => some result

/-- A loop in which every turn that goes on makes a measure less, and leaves alone what the
loop is to give, gives it within any number of turns above the measure. -/
theorem runFor_eq_some {turn : σ → σ ⊕ β} (valid : σ → Prop) (measure : σ → Nat) (result : σ → β)
    (goesOn : ∀ s next, valid s → turn s = .inl next →
      valid next ∧ measure next < measure s ∧ result next = result s)
    (ends : ∀ s b, valid s → turn s = .inr b → b = result s)
    {turns : Nat} {s : σ} (hs : valid s) (hturns : measure s < turns) :
    runFor turn turns s = some (result s) := by
  induction turns generalizing s with
  | zero => exact absurd hturns (Nat.not_lt_zero _)
  | succ turns ih =>
      rw [runFor]
      cases hturn : turn s with
      | inl next =>
          obtain ⟨hnext, hless, hresult⟩ := goesOn s next hs hturn
          rw [← hresult]
          exact ih hnext (by omega)
      | inr b => exact congrArg some (ends s b hs hturn)

end Kiln
