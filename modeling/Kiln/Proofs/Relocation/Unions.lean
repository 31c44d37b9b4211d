import Kiln.Excerpt.Union
import Kiln.Proofs.Relocation.Parts
import Mathlib.Data.List.InsertIdx

/-!
# Unions on other lines

To merge excerpts is to look for lines by their index.  Where every line is shown as one
that stands the same number of lines lower, the lines keep their order, and merging goes
the same way: the union of excerpts shown on other lines is their union, shown on these.
-/

namespace Kiln

/-- Every line is shown as one with the same code points a number of lines below. -/
structure Lowers (f : Line → Line) (offset : Nat) : Prop where
  index_eq : ∀ line, (f line).index = line.index + offset
  chars_eq : ∀ line, (f line).chars = line.chars

/-! ## Finding keys -/

section Slot

variable {α β : Type} {keyOf : α → Nat} {keyOf' : β → Nat} {g : α → β} {offset : Nat}
  (h : ∀ a, keyOf' (g a) = keyOf a + offset)

include h

theorem Slot.narrow_map (xs : Array α) (key base size : Nat) :
    narrow keyOf' (xs.map g) (key + offset) base size = narrow keyOf xs key base size := by
  induction size using Nat.strongRecOn generalizing base with
  | ind size ih =>
      rw [narrow, narrow.eq_def keyOf]
      dsimp only
      split
      · have hgreater : ((xs.map g)[base + size / 2]?.map fun x =>
            decide (key + offset < keyOf' x)) =
            xs[base + size / 2]?.map fun x => decide (key < keyOf x) := by
          rw [Array.getElem?_map, Option.map_map]
          simp [Function.comp_def, h]
        rw [hgreater, ih _ (by omega)]
      · rfl

/-- A key is found where it was if all keys have grown by the same number. -/
theorem Slot.find_map (xs : Array α) (key : Nat) :
    find keyOf' (xs.map g) (key + offset) = find keyOf xs key := by
  rw [find, find, Array.size_map, narrow_map h, Array.getElem?_map]
  cases xs[narrow keyOf xs key 0 xs.size]? with
  | none => rfl
  | some a => simp [h]

end Slot

/-! ## Changing elements -/

theorem map_modify {α β : Type} {g : α → β} {change : α → α} {change' : β → β}
    (h : ∀ a, change' (g a) = g (change a)) (xs : Array α) (index : Nat) :
    (xs.modify index change).map g = (xs.map g).modify index change' := by
  apply Array.ext_getElem?
  intro i
  rw [Array.getElem?_map, Array.getElem?_modify, Array.getElem?_modify, Array.getElem?_map]
  split
  · rw [Option.map_map, Option.map_map]
    exact congrArg (Option.map · xs[i]?) (funext fun a => (h a).symm)
  · rfl

theorem map_insertIdxIfInBounds {α β : Type} (g : α → β) (xs : Array α) (index : Nat) (a : α) :
    (xs.insertIdxIfInBounds index a).map g = (xs.map g).insertIdxIfInBounds index (g a) := by
  apply Array.toList_inj.1
  by_cases hle : index ≤ xs.size
  · simp [Array.insertIdxIfInBounds, hle, List.map_insertIdx]
  · simp [Array.insertIdxIfInBounds, hle]

/-! ## Merging excerpts -/

section Lowered

variable {f : Line → Line} {offset : Nat} (h : Lowers f offset)

theorem Span.highlightAll_mapLine (f : Line → Line) (span : Span) (hs : Array Highlight) :
    (span.mapLine f).highlightAll hs = (span.highlightAll hs).mapLine f :=
  Array.foldl_hom (Span.mapLine f) fun _ _ => rfl

include h

theorem Span.place_mapLine (spans : Array Span) (span : Span) :
    place (spans.map (mapLine f)) (span.mapLine f) = (place spans span).map (mapLine f) := by
  have hslot : Slot.find (fun s : Span => s.line.index) (spans.map (mapLine f))
      (span.line.index + offset) = Slot.find (fun s => s.line.index) spans span.line.index :=
    Slot.find_map (g := mapLine f) (fun s => h.index_eq s.line) spans span.line.index
  have hindex : (span.mapLine f).line.index = span.line.index + offset :=
    h.index_eq span.line
  rw [place, place, hindex, hslot]
  cases Slot.find (fun s : Span => s.line.index) spans span.line.index with
  | taken index =>
      exact (map_modify (fun s => highlightAll_mapLine f s span.highlights) spans index).symm
  | free index => exact (map_insertIdxIfInBounds (mapLine f) spans index span).symm

namespace Excerpt

theorem absorb_mapLines (e other : Excerpt) :
    (e.mapLines f).absorb (other.mapLines f) = (e.absorb other).mapLines f := by
  obtain ⟨file, spans, leading, trailing⟩ := e
  obtain ⟨file', spans', leading', trailing'⟩ := other
  cases file' with
  | none => rfl
  | some name =>
      have hspans : (spans'.map (Span.mapLine f)).foldl Span.place (spans.map (Span.mapLine f)) =
          (spans'.foldl Span.place spans).map (Span.mapLine f) := by
        rw [Array.foldl_map]
        exact Array.foldl_hom _ fun _ _ => Span.place_mapLine h _ _
      simp only [absorb, mapLines, hspans, List.isEmpty_map, mk.injEq, true_and]
      exact ⟨(apply_ite _ _ _ _).symm, (apply_ite _ _ _ _).symm⟩

theorem add_mapLines (e other : Excerpt) :
    (e.mapLines f).add (other.mapLines f) = (e.add other).mapLines f := by
  have hmismatch : (e.mapLines f).mismatch? (other.mapLines f) = e.mismatch? other := rfl
  rw [add, add, hmismatch, absorb_mapLines h]
  split <;> rfl

theorem foldl_add_mapLines (e : Excerpt) (es : List Excerpt) :
    (es.map (mapLines f)).foldl add (e.mapLines f) = (es.foldl add e).mapLines f := by
  induction es generalizing e with
  | nil => rfl
  | cons other es ih => rw [List.map_cons, List.foldl_cons, add_mapLines h, ih, List.foldl_cons]

/-- A union is shown on other lines if its parts are. -/
theorem union_mapLines (es : List Excerpt) :
    union (es.map (mapLines f)) = (union es).mapLines f := by
  have hunion := foldl_add_mapLines h detached es
  rwa [mapLines_detached] at hunion

end Excerpt
end Lowered
end Kiln
