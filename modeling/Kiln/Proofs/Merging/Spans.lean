import Kiln.Excerpt.Union
import Kiln.Proofs.Merging.Highlights

/-!
# Lines in order

The lines of an excerpt are kept in the order of their indices, so that a line is found by
halving.  What is known of lines in order is which of them has an index, if any has.  Seen
like this, to place a line is to merge it with the one of its index, and to place lines one
after the other is to merge them index by index.
-/

namespace Kiln

/-! ## Finding places -/

section Slot

variable {α : Type} {keyOf : α → Nat} {xs : Array α}

/-- Keys go up along an array. -/
theorem lt_of_pairwise_toList (hup : xs.toList.Pairwise fun x y => keyOf x < keyOf y) {i j : Nat}
    {x y : α} (hx : xs[i]? = some x) (hy : xs[j]? = some y) (hij : i < j) : keyOf x < keyOf y := by
  obtain ⟨hi, rfl⟩ := Array.getElem?_eq_some_iff.1 hx
  obtain ⟨hj, rfl⟩ := Array.getElem?_eq_some_iff.1 hy
  exact List.pairwise_iff_getElem.1 hup i j hi hj hij

/-- Halving ends at the last element whose key is not greater, or at the first element. -/
theorem Slot.narrow_spec (key : Nat) (hup : xs.toList.Pairwise fun x y => keyOf x < keyOf y)
    {base size : Nat} (hsize : 0 < size) (hbound : base + size ≤ xs.size)
    (hbase : base = 0 ∨ ∀ x ∈ xs[base]?, keyOf x ≤ key)
    (habove : ∀ i x, base + size ≤ i → xs[i]? = some x → key < keyOf x) :
    narrow keyOf xs key base size < xs.size ∧
      (narrow keyOf xs key base size = 0 ∨
        ∀ x ∈ xs[narrow keyOf xs key base size]?, keyOf x ≤ key) ∧
      ∀ i x, narrow keyOf xs key base size < i → xs[i]? = some x → key < keyOf x := by
  induction size using Nat.strongRecOn generalizing base with
  | ind size ih =>
      rw [narrow]
      split
      · next hlt =>
          have hmiddle : base + size / 2 < xs.size := by omega
          obtain ⟨middle, hget⟩ : ∃ x, xs[base + size / 2]? = some x :=
            ⟨_, Array.getElem?_eq_getElem hmiddle⟩
          simp only [hget, Option.map_some, Option.getD_some, decide_eq_true_eq]
          split
          · next hgreater =>
              refine ih _ (by omega) (by omega) (by omega) hbase fun i x hi hx => ?_
              rcases Nat.eq_or_lt_of_le (show base + size / 2 ≤ i by omega) with rfl | hlt'
              · rw [hget] at hx
                cases hx
                exact hgreater
              · have hkeys := lt_of_pairwise_toList hup hget hx hlt'
                omega
          · next hgreater =>
              refine ih _ (by omega) (by omega) (by omega) (.inr ?_) fun i x hi hx => ?_
              · rintro x hx
                rw [hget] at hx
                cases hx
                exact Nat.le_of_not_lt hgreater
              · exact habove i x (by omega) hx
      · have hone : size = 1 := by omega
        subst hone
        exact ⟨by omega, hbase, fun i x hi hx => habove i x hi hx⟩

/-- A key is found where an element has it, or where an element with it would keep the keys
going up. -/
theorem Slot.find_cases (key : Nat) (hup : xs.toList.Pairwise fun x y => keyOf x < keyOf y) :
    (∃ index x, find keyOf xs key = .taken index ∧ xs[index]? = some x ∧ keyOf x = key) ∨
    ∃ index, find keyOf xs key = .free index ∧ index ≤ xs.size ∧
      (∀ i x, i < index → xs[i]? = some x → keyOf x < key) ∧
      ∀ i x, index ≤ i → xs[i]? = some x → key < keyOf x := by
  rcases Nat.eq_zero_or_pos xs.size with hempty | hpos
  · have hxs : xs = #[] := Array.eq_empty_of_size_eq_zero hempty
    subst hxs
    exact .inr ⟨0, by simp [find], by simp⟩
  · obtain ⟨hlt, hle, habove⟩ := narrow_spec key hup hpos (Nat.le_of_eq (Nat.zero_add _))
      (.inl rfl) fun i x hi hx => by
        have hbound := (Array.getElem?_eq_some_iff.1 hx).1
        omega
    rw [find]
    generalize narrow keyOf xs key 0 xs.size = index at hlt hle habove
    obtain ⟨found, hget⟩ : ∃ x, xs[index]? = some x := ⟨_, Array.getElem?_eq_getElem hlt⟩
    have hbelow : ∀ i x, i < index → xs[i]? = some x → keyOf x < keyOf found :=
      fun i x hi hx => lt_of_pairwise_toList hup hx hget hi
    simp only [hget]
    split
    · next heq => exact .inl ⟨index, found, rfl, hget, heq⟩
    · next hne =>
        split
        · next hless =>
            refine .inr ⟨index + 1, rfl, hlt, fun i x hi hx => ?_, fun i x hi hx => ?_⟩
            · rcases Nat.eq_or_lt_of_le (Nat.le_of_lt_succ hi) with rfl | hi
              · rw [hget] at hx
                cases hx
                exact hless
              · exact Nat.lt_trans (hbelow i x hi hx) hless
            · exact habove i x hi hx
        · next hless =>
            -- only at the first element does halving end at a greater key
            have hzero : index = 0 := by
              rcases hle with hzero | hle
              · exact hzero
              · have hfound := hle found hget
                omega
            refine .inr ⟨index, rfl, Nat.le_of_lt hlt, fun i x hi hx => ?_, fun i x hi hx => ?_⟩
            · omega
            · rcases Nat.eq_or_lt_of_le hi with rfl | hi
              · rw [hget] at hx
                cases hx
                omega
              · exact habove i x hi hx

end Slot

/-! ## Lines by index -/

namespace Span

/-- Lines in the order of their indices, no two with the same. -/
def Ascending (spans : List Span) : Prop :=
  spans.Pairwise fun s t => s.line.index < t.line.index

instance (spans : List Span) : Decidable (Ascending spans) :=
  inferInstanceAs (Decidable (spans.Pairwise fun s t => s.line.index < t.line.index))

/-- The line with an index. -/
def at? (spans : List Span) (index : Nat) : Option Span :=
  spans.find? fun span => span.line.index = index

/-- A line with the highlights of another one added to its own. -/
def merge (span other : Span) : Span := span.highlightAll other.highlights

variable {spans more : List Span} {span : Span} {index : Nat}

theorem at?_eq_some_iff (h : Ascending spans) :
    at? spans index = some span ↔ span ∈ spans ∧ span.line.index = index := by
  constructor
  · intro hat
    exact ⟨List.mem_of_find?_eq_some hat, by simpa using List.find?_some hat⟩
  · rintro ⟨hmem, hindex⟩
    obtain ⟨front, back, rfl⟩ := List.append_of_mem hmem
    have hfront : front.find? (fun s => s.line.index = index) = none := by
      refine List.find?_eq_none.2 fun s hs => ?_
      have hlt := (List.pairwise_append.1 h).2.2 s hs span List.mem_cons_self
      rw [decide_eq_true_eq]
      omega
    rw [at?, List.find?_append, hfront, Option.none_or, List.find?_cons_of_pos]
    simpa using hindex

theorem at?_eq_none_iff : at? spans index = none ↔ ∀ span ∈ spans, span.line.index ≠ index := by
  simp [at?]

/-- Lines in order are known by which of them has an index. -/
theorem ext_at? {as bs : List Span} (has : Ascending as) (hbs : Ascending bs)
    (h : ∀ index, at? as index = at? bs index) : as = bs := by
  have hnodup : ∀ {cs : List Span}, Ascending cs → cs.Nodup := fun hcs =>
    hcs.imp fun hlt heq => absurd (heq ▸ hlt) (Nat.lt_irrefl _)
  have hmem : ∀ span, span ∈ as ↔ span ∈ bs := by
    intro span
    have hspan := h span.line.index
    constructor
    · intro hin
      rw [(at?_eq_some_iff has).2 ⟨hin, rfl⟩] at hspan
      exact ((at?_eq_some_iff hbs).1 hspan.symm).1
    · intro hin
      rw [(at?_eq_some_iff hbs).2 ⟨hin, rfl⟩] at hspan
      exact ((at?_eq_some_iff has).1 hspan).1
  have hperm := (List.perm_ext_iff_of_nodup (hnodup has) (hnodup hbs)).2 hmem
  refine hperm.eq_of_pairwise (fun s t _ _ hst hts => ?_) has hbs
  omega

/-- The line that is placed is merged with the one that is there, or put among the
others. -/
theorem place_cases {spans : Array Span} (h : Ascending spans.toList) (span : Span) :
    (∃ front s back, spans.toList = front ++ s :: back ∧ s.line.index = span.line.index ∧
      (place spans span).toList = front ++ s.merge span :: back) ∨
    ∃ front back, spans.toList = front ++ back ∧
      (∀ s ∈ front, s.line.index < span.line.index) ∧
      (∀ s ∈ back, span.line.index < s.line.index) ∧
      (place spans span).toList = front ++ span :: back := by
  rcases Slot.find_cases span.line.index h with
    ⟨index, s, hfind, hget, hindex⟩ | ⟨index, hfind, hle, hbelow, habove⟩
  · obtain ⟨hlt, rfl⟩ := Array.getElem?_eq_some_iff.1 hget
    refine .inl ⟨spans.toList.take index, spans[index], spans.toList.drop (index + 1), ?_,
      hindex, ?_⟩
    · rw [← Array.getElem_toList, List.getElem_cons_drop, List.take_append_drop]
    · rw [place, hfind]
      simp only [Array.toList_modify]
      rw [List.modify_eq_take_cons_drop (by simpa using hlt)]
      rfl
  · refine .inr ⟨spans.toList.take index, spans.toList.drop index,
      (List.take_append_drop _ _).symm, fun s hs => ?_, fun s hs => ?_, ?_⟩
    · obtain ⟨i, hi, rfl⟩ := List.mem_iff_getElem.1 hs
      rw [List.length_take] at hi
      refine hbelow i _ (by omega) ?_
      rw [List.getElem_take, Array.getElem_toList, Array.getElem?_eq_getElem]
    · obtain ⟨i, hi⟩ := List.mem_iff_getElem?.1 hs
      rw [List.getElem?_drop, Array.getElem?_toList] at hi
      exact habove _ s (Nat.le_add_right _ _) hi
    · rw [place, hfind]
      simp only [Array.insertIdxIfInBounds, dif_pos hle, Array.toList_insertIdx]
      exact insertIdx_eq_take_append (by simpa using hle) span

@[simp] theorem line_merge (span other : Span) : (span.merge other).line = span.line := by
  have hline : ∀ (hs : List Highlight) (s : Span), (hs.foldl highlight s).line = s.line := by
    intro hs
    induction hs with
    | nil => exact fun _ => rfl
    | cons h hs ih => exact fun s => ih (s.highlight h)
  rw [merge, highlightAll, ← Array.foldl_toList, hline]

theorem ascending_iff {spans : List Span} :
    Ascending spans ↔ (spans.map fun span => span.line.index).Pairwise (· < ·) :=
  List.pairwise_map.symm

theorem ascending_place {spans : Array Span} (h : Ascending spans.toList) (span : Span) :
    Ascending (place spans span).toList := by
  rcases place_cases h span with ⟨front, s, back, hspans, -, hplace⟩ |
    ⟨front, back, hspans, hfront, hback, hplace⟩
  · rw [ascending_iff, hspans] at h
    rw [ascending_iff, hplace]
    simpa using h
  · rw [hplace]
    rw [hspans] at h
    obtain ⟨hfrontUp, hbackUp, happart⟩ := List.pairwise_append.1 h
    refine List.pairwise_append.2 ⟨hfrontUp, List.pairwise_cons.2 ⟨hback, hbackUp⟩, ?_⟩
    intro s hs t ht
    rcases List.mem_cons.1 ht with rfl | ht
    · exact hfront s hs
    · exact happart s hs t ht

/-- To place a line is to merge it with the one of its index. -/
theorem at?_place {spans : Array Span} (h : Ascending spans.toList) (span : Span) (index : Nat) :
    at? (place spans span).toList index =
      (at? spans.toList index).merge merge (at? [span] index) := by
  have hplaced := ascending_place h span
  rcases place_cases h span with ⟨front, s, back, hspans, hindex, hplace⟩ |
    ⟨front, back, hspans, hfront, hback, hplace⟩
  · by_cases heq : span.line.index = index
    · have hold : at? spans.toList index = some s :=
        (at?_eq_some_iff h).2 ⟨by simp [hspans], hindex.trans heq⟩
      have hnew : at? (place spans span).toList index = some (s.merge span) :=
        (at?_eq_some_iff hplaced).2 ⟨by simp [hplace], by rw [line_merge, hindex, heq]⟩
      rw [hold, hnew]
      simp [at?, heq]
    · rw [hplace, hspans]
      simp [at?, List.find?_append, hindex, heq]
  · by_cases heq : span.line.index = index
    · have hold : at? spans.toList index = none := by
        refine at?_eq_none_iff.2 fun s hs => ?_
        rw [hspans] at hs
        rcases List.mem_append.1 hs with hs | hs
        · exact Nat.ne_of_lt (heq ▸ hfront s hs)
        · exact Nat.ne_of_gt (heq ▸ hback s hs)
      have hnew : at? (place spans span).toList index = some span :=
        (at?_eq_some_iff hplaced).2 ⟨by simp [hplace], heq⟩
      rw [hold, hnew]
      simp [at?, heq]
    · rw [hplace, hspans]
      simp [at?, List.find?_append, heq]

/-- To place lines one after the other is to merge them index by index. -/
theorem at?_foldl_place {spans : Array Span} {others : List Span} (h : Ascending spans.toList)
    (hothers : Ascending others) :
    Ascending (others.foldl place spans).toList ∧ ∀ index,
      at? (others.foldl place spans).toList index =
        (at? spans.toList index).merge merge (at? others index) := by
  induction others generalizing spans with
  | nil => exact ⟨h, fun index => by simp [at?]⟩
  | cons span others ih =>
      obtain ⟨hspan, hrest⟩ := List.pairwise_cons.1 hothers
      obtain ⟨hall, hat⟩ := ih (ascending_place h span) hrest
      refine ⟨hall, fun index => ?_⟩
      rw [List.foldl_cons, hat, at?_place h]
      by_cases heq : span.line.index = index
      · have hnone : at? others index = none :=
          at?_eq_none_iff.2 fun s hs => Nat.ne_of_gt (heq ▸ hspan s hs)
        rw [hnone, Option.merge_none_right]
        simp [at?, heq]
      · simp [at?, heq]

/-! ## Merging lines -/

theorem marks_merge {span other : Span} (h : Highlight.InOrder span.marks) :
    (span.merge other).marks = Highlight.sort (span.marks ++ other.marks) :=
  (marks_highlightAll h other.highlights).2

theorem inOrder_merge {span other : Span} (h : Highlight.InOrder span.marks) :
    Highlight.InOrder (span.merge other).marks :=
  marks_merge h ▸ Highlight.inOrder_sort _

/-- Lines are merged in whatever grouping. -/
theorem merge_assoc {span other third : Span} (h : Highlight.InOrder span.marks)
    (hother : Highlight.InOrder other.marks) :
    (span.merge other).merge third = span.merge (other.merge third) := by
  have hmarks : ((span.merge other).merge third).marks =
      (span.merge (other.merge third)).marks := by
    rw [marks_merge (inOrder_merge h), marks_merge h, marks_merge h, marks_merge hother,
      Highlight.sort_append_sort_left, Highlight.sort_append_sort_right, List.append_assoc]
  have hline : ((span.merge other).merge third).line = (span.merge (other.merge third)).line := by
    simp
  exact (Span.mk.injEq ..).mpr ⟨hline, Array.toList_inj.1 hmarks⟩

end Span
end Kiln
