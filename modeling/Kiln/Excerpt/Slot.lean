/-!
# Finding a key's place by halving

`Slot.find` looks for a key among the keys of an array's elements.  If the keys
increase it finds the index of the element with the key, or the index at which one
has to be inserted for them to keep increasing.
-/

namespace Kiln

/-- The place of a key: taken by an equal one, or free. -/
inductive Slot where
  | taken (index : Nat)
  | free (index : Nat)

namespace Slot

variable {α : Type}

/-- Halves the `size` elements from `base` on until one is left, keeping the upper
half unless it starts with a greater key. -/
def narrow (keyOf : α → Nat) (xs : Array α) (key base size : Nat) : Nat :=
  if 1 < size then
    let half := size / 2
    let middle := base + half
    let isGreater := (xs[middle]?.map fun x => decide (key < keyOf x)).getD false
    narrow keyOf xs key (if isGreater then base else middle) (size - half)
  else base
termination_by size

/-- The place of a key. -/
def find (keyOf : α → Nat) (xs : Array α) (key : Nat) : Slot :=
  let index := narrow keyOf xs key 0 xs.size
  match xs[index]? with
  | none => .free 0
  | some found =>
    if keyOf found = key then .taken index
    else if keyOf found < key then .free (index + 1)
    else .free index

end Slot
end Kiln
