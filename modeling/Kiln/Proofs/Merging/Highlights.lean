import Kiln.Excerpt.Basic

/-!
# Highlights in order

The highlights of a line are kept in the order of their starts, those that start at one
column in the order in which they came.  Adding highlights one by one therefore sorts them
stably, whatever is added when.

A list sorted stably is known by two things: its starts go up, and for every column it has
the same highlights that start there, in the same order.
-/

namespace Kiln

theorem insertIdx_eq_take_append {α : Type} {as : List α} {index : Nat} (h : index ≤ as.length)
    (a : α) : as.insertIdx index a = as.take index ++ a :: as.drop index := by
  induction as generalizing index with
  | nil =>
      rw [Nat.le_zero.1 h]
      rfl
  | cons b bs ih =>
      cases index with
      | zero => rfl
      | succ index =>
          rw [List.insertIdx_succ_cons, ih (Nat.le_of_succ_le_succ h), List.take_succ_cons,
            List.drop_succ_cons, List.cons_append]

namespace Highlight

/-- Highlights in the order of their starts. -/
def InOrder (hs : List Highlight) : Prop := hs.Pairwise fun h k => h.start ≤ k.start

/-- Highlights sorted by start, those with the same start left in their order. -/
def sort (hs : List Highlight) : List Highlight := hs.mergeSort fun h k => h.start ≤ k.start

/-- The highlights that start at a column. -/
def startingAt (column : Nat) (hs : List Highlight) : List Highlight :=
  hs.filter (·.start = column)

@[simp] theorem startingAt_append (column : Nat) (hs ks : List Highlight) :
    startingAt column (hs ++ ks) = startingAt column hs ++ startingAt column ks :=
  List.filter_append ..

theorem startingAt_cons (column : Nat) (h : Highlight) (hs : List Highlight) :
    startingAt column (h :: hs) =
      if h.start = column then h :: startingAt column hs else startingAt column hs := by
  simp [startingAt, List.filter_cons]

theorem mem_startingAt {column : Nat} {h : Highlight} {hs : List Highlight} :
    h ∈ startingAt column hs ↔ h ∈ hs ∧ h.start = column := by
  simp [startingAt]

/-! ## Sorting -/

theorem startsUpTo_trans (h k l : Highlight) (hhk : decide (h.start ≤ k.start) = true)
    (hkl : decide (k.start ≤ l.start) = true) : decide (h.start ≤ l.start) = true := by
  simp only [decide_eq_true_eq] at *
  exact Nat.le_trans hhk hkl

theorem startsUpTo_total (h k : Highlight) :
    (decide (h.start ≤ k.start) || decide (k.start ≤ h.start)) = true := by
  simpa using Nat.le_total h.start k.start

theorem inOrder_sort (hs : List Highlight) : InOrder (sort hs) :=
  (List.pairwise_mergeSort startsUpTo_trans startsUpTo_total hs).imp of_decide_eq_true

theorem sort_perm (hs : List Highlight) : (sort hs).Perm hs := List.mergeSort_perm hs _

@[simp] theorem startingAt_sort (column : Nat) (hs : List Highlight) :
    startingAt column (sort hs) = startingAt column hs := by
  have hequal : (startingAt column hs).Pairwise fun h k => decide (h.start ≤ k.start) := by
    refine List.pairwise_of_forall_mem_list fun h hh k hk => decide_eq_true ?_
    exact Nat.le_of_eq ((mem_startingAt.1 hh).2.trans (mem_startingAt.1 hk).2.symm)
  have hsublist : (startingAt column hs).Sublist (sort hs) :=
    List.sublist_mergeSort startsUpTo_trans startsUpTo_total hequal List.filter_sublist
  have hfilter := hsublist.filter (·.start = column)
  simp only [startingAt, List.filter_filter, Bool.and_self] at hfilter
  exact (hfilter.eq_of_length ((sort_perm hs).filter _).length_eq.symm).symm

theorem start_le_of_mem {h : Highlight} {hs : List Highlight} (horder : InOrder (h :: hs)) :
    ∀ k ∈ h :: hs, h.start ≤ k.start :=
  List.forall_mem_cons.2 ⟨Nat.le_refl _, (List.pairwise_cons.1 horder).1⟩

/-- Lists in order are equal if the same highlights start at each column. -/
theorem eq_of_startingAt {hs ks : List Highlight} (hhs : InOrder hs) (hks : InOrder ks)
    (h : ∀ column, startingAt column hs = startingAt column ks) : hs = ks := by
  have hmem : ∀ a, a ∈ hs ↔ a ∈ ks := fun a => by
    have ha := congrArg (a ∈ ·) (h a.start)
    simpa [mem_startingAt] using ha
  induction hs generalizing ks with
  | nil => exact (List.eq_nil_iff_forall_not_mem.2 fun a ha => by cases (hmem a).2 ha).symm
  | cons a hs ih =>
      cases ks with
      | nil => cases (hmem a).1 List.mem_cons_self
      | cons b ks =>
          -- both begin with the highlights that start first
          have hab : a.start = b.start :=
            Nat.le_antisymm (start_le_of_mem hhs b ((hmem b).2 List.mem_cons_self))
              (start_le_of_mem hks a ((hmem a).1 List.mem_cons_self))
          have hhead := h b.start
          rw [startingAt_cons, startingAt_cons, if_pos hab, if_pos rfl] at hhead
          obtain ⟨rfl, -⟩ := List.cons.inj hhead
          have htail : ∀ column, startingAt column hs = startingAt column ks := by
            intro column
            have hcolumn := h column
            rw [startingAt_cons, startingAt_cons] at hcolumn
            split at hcolumn
            · exact (List.cons.inj hcolumn).2
            · exact hcolumn
          refine congrArg (a :: ·) (ih (List.pairwise_cons.1 hhs).2 (List.pairwise_cons.1 hks).2
            htail fun c => ?_)
          have hc := congrArg (c ∈ ·) (htail c.start)
          simpa [mem_startingAt] using hc

/-- A list is the sorted one if it is in order and the same highlights start at each
column. -/
theorem eq_sort {hs ks : List Highlight} (hks : InOrder ks)
    (h : ∀ column, startingAt column ks = startingAt column hs) : ks = sort hs :=
  eq_of_startingAt hks (inOrder_sort hs) fun column => by rw [h, startingAt_sort]

theorem sort_eq_self {hs : List Highlight} (h : InOrder hs) : sort hs = hs :=
  (eq_sort h fun _ => rfl).symm

theorem sort_append_sort_left (hs ks : List Highlight) : sort (sort hs ++ ks) = sort (hs ++ ks) :=
  eq_sort (inOrder_sort _) fun column => by simp

theorem sort_append_sort_right (hs ks : List Highlight) : sort (hs ++ sort ks) = sort (hs ++ ks) :=
  eq_sort (inOrder_sort _) fun column => by simp

/-! ## Adding one by one -/

/-- How a list in order is cut where a highlight is added. -/
theorem countUpTo_spec {hs : Array Highlight} (column : Nat) {count : Nat}
    (hcount : count ≤ hs.size) (horder : InOrder hs.toList) :
    (∀ h ∈ hs.toList.take (countUpTo hs column count), h.start ≤ column) ∧
      ∀ i h, countUpTo hs column count ≤ i → i < count → hs[i]? = some h → column < h.start := by
  fun_induction countUpTo hs column count with
  | case1 => exact ⟨by simp, by omega⟩
  | case2 count h hget hle =>
      refine ⟨?_, by omega⟩
      intro k hk
      obtain ⟨i, hi, rfl⟩ := List.mem_iff_getElem.1 hk
      rw [List.length_take, Array.length_toList] at hi
      rw [List.getElem_take]
      obtain ⟨hlt, rfl⟩ := Array.getElem?_eq_some_iff.1 hget
      rcases Nat.lt_or_ge i count with hbefore | hafter
      · have hstart := List.pairwise_iff_getElem.1 horder i count (by simp; omega) (by simpa)
          hbefore
        simp only [Array.getElem_toList] at hstart ⊢
        omega
      · have heq : i = count := by omega
        subst heq
        simpa using hle
  | case3 count h hget hlt ih =>
      obtain ⟨hbefore, hbehind⟩ := ih (by omega)
      refine ⟨hbefore, ?_⟩
      intro i k hi hcount' hk
      rcases Nat.lt_or_ge i count with hlt' | hge
      · exact hbehind i k hi hlt' hk
      · have heq : i = count := by omega
        subst heq
        rw [hget] at hk
        cases hk
        omega
  | case4 count hget ih =>
      rw [Array.getElem?_eq_none_iff] at hget
      omega

/-- Adding a highlight to a list in order is sorting it in behind the others. -/
theorem toList_insert {h : Highlight} {hs : Array Highlight} (horder : InOrder hs.toList) :
    (h.insert hs).toList = sort (hs.toList ++ [h]) := by
  have hle := countUpTo_le hs h.start hs.size
  obtain ⟨hbefore, hbehind⟩ := countUpTo_spec h.start (Nat.le_refl hs.size) horder
  rw [insert, Array.toList_insertIdx, insertIdx_eq_take_append (by simpa using hle)]
  generalize countUpTo hs h.start hs.size = count at hle hbefore hbehind
  have hdrop : ∀ k ∈ hs.toList.drop count, h.start < k.start := by
    intro k hk
    obtain ⟨i, hi⟩ := List.mem_iff_getElem?.1 hk
    rw [List.getElem?_drop, Array.getElem?_toList] at hi
    have hlt := (Array.getElem?_eq_some_iff.1 hi).1
    exact hbehind _ k (Nat.le_add_right _ _) hlt hi
  have hsplit := List.take_append_drop count hs.toList
  have hparts := List.pairwise_append.1 (hsplit.symm ▸ horder : InOrder _)
  refine eq_sort ?_ fun column => ?_
  · refine List.pairwise_append.2 ⟨hparts.1, List.pairwise_cons.2 ⟨?_, hparts.2.1⟩, ?_⟩
    · exact fun k hk => Nat.le_of_lt (hdrop k hk)
    · intro k hk l hl
      rcases List.mem_cons.1 hl with rfl | hl
      · exact hbefore k hk
      · exact hparts.2.2 k hk l hl
  · have hnew := congrArg (startingAt column) hsplit
    rw [startingAt_append] at hnew
    rw [startingAt_append, startingAt_append, startingAt_cons, startingAt_cons, ← hnew]
    by_cases hcolumn : h.start = column
    · -- nothing behind the new highlight starts at its column
      have hnone : startingAt column (hs.toList.drop count) = [] := by
        refine List.eq_nil_iff_forall_not_mem.2 fun k hk => ?_
        obtain ⟨hmem, hstart⟩ := mem_startingAt.1 hk
        have hlt := hdrop k hmem
        omega
      rw [if_pos hcolumn, if_pos hcolumn, hnone, List.append_nil]
      rfl
    · rw [if_neg hcolumn, if_neg hcolumn]
      exact (List.append_nil _).symm

end Highlight

/-! ## Adding the highlights of another line -/

namespace Span

/-- The highlights of a line as a list. -/
abbrev marks (span : Span) : List Highlight := span.highlights.toList

/-- Highlights that are added to a line in order are sorted in behind its own. -/
theorem marks_highlightAll {span : Span} (horder : Highlight.InOrder span.marks)
    (hs : Array Highlight) :
    (span.highlightAll hs).line = span.line ∧
      (span.highlightAll hs).marks = Highlight.sort (span.marks ++ hs.toList) := by
  obtain ⟨hs⟩ := hs
  rw [highlightAll, List.foldl_toArray]
  induction hs generalizing span with
  | nil => exact ⟨rfl, by rw [List.append_nil, Highlight.sort_eq_self horder]; rfl⟩
  | cons h hs ih =>
      have hfirst : (span.highlight h).marks = Highlight.sort (span.marks ++ [h]) :=
        Highlight.toList_insert horder
      obtain ⟨hline, hmarks⟩ := ih (hfirst ▸ Highlight.inOrder_sort _)
      refine ⟨hline, ?_⟩
      rw [List.foldl_cons, hmarks, hfirst, Highlight.sort_append_sort_left, List.append_assoc]
      rfl

end Span
end Kiln
