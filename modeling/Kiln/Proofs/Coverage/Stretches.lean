import Kiln.Excerpt.Cut
import Kiln.Excerpt.Union

/-!
# Stretches of lines

The highlights of an excerpt are stretches of lines of its file.  As long as the
stretches of excerpts come in source order, merging the excerpts appends them: every
line finds its place at the end of the lines covered so far, and every highlight at the
end of its line.
-/

namespace Kiln

/-! ## Positions in source order -/

instance : LE Position where
  le p q := p.line < q.line ∨ p.line = q.line ∧ p.column ≤ q.column

instance : LT Position where
  lt p q := p.line < q.line ∨ p.line = q.line ∧ p.column < q.column

namespace Position

theorem le_def {p q : Position} :
    p ≤ q ↔ p.line < q.line ∨ p.line = q.line ∧ p.column ≤ q.column := Iff.rfl

theorem lt_def {p q : Position} :
    p < q ↔ p.line < q.line ∨ p.line = q.line ∧ p.column < q.column := Iff.rfl

protected theorem le_refl (p : Position) : p ≤ p := Or.inr ⟨rfl, Nat.le_refl _⟩

protected theorem le_trans {p q r : Position} (hpq : p ≤ q) (hqr : q ≤ r) : p ≤ r := by
  rw [le_def] at *
  omega

protected theorem le_of_lt {p q : Position} (h : p < q) : p ≤ q := by
  rw [le_def]
  rw [lt_def] at h
  omega

protected theorem lt_of_le_of_lt {p q r : Position} (hpq : p ≤ q) (hqr : q < r) : p < r := by
  rw [le_def] at hpq
  rw [lt_def] at *
  omega

protected theorem lt_of_lt_of_le {p q r : Position} (hpq : p < q) (hqr : q ≤ r) : p < r := by
  rw [le_def] at hqr
  rw [lt_def] at *
  omega

protected theorem lt_or_le (p q : Position) : p < q ∨ q ≤ p := by
  rw [lt_def, le_def]
  omega

protected theorem not_lt {p q : Position} : ¬p < q ↔ q ≤ p := by
  rw [lt_def, le_def]
  omega

end Position

/-! ## Stretches -/

/-- The columns of a line from `start` up to `stop`. -/
structure Stretch where
  line : Nat
  start : Nat
  stop : Nat

namespace Stretch

/-- Where a stretch begins. -/
def first (r : Stretch) : Position := ⟨r.line, r.start⟩

/-- Where a stretch is over. -/
def last (r : Stretch) : Position := ⟨r.line, r.stop⟩

/-- Whether a position lies in a stretch. -/
def Covers (r : Stretch) (p : Position) : Prop :=
  r.line = p.line ∧ r.start ≤ p.column ∧ p.column < r.stop

/-- Whether a stretch is over where another one, further on, begins. -/
def Before (r s : Stretch) : Prop :=
  r.line < s.line ∨ r.line = s.line ∧ r.start < s.start ∧ r.stop ≤ s.start

end Stretch

/-- The stretches of a span. -/
def Span.stretches (span : Span) : List Stretch :=
  span.highlights.toList.map fun h => ⟨span.line.index, h.start, h.stop⟩

/-- The stretches of spans. -/
def stretchesOf (spans : Array Span) : List Stretch :=
  spans.toList.flatMap Span.stretches

/-- The stretches of an excerpt. -/
def Excerpt.stretches (e : Excerpt) : List Stretch := stretchesOf e.spans

@[simp] theorem stretchesOf_empty : stretchesOf #[] = [] := rfl

@[simp] theorem stretchesOf_singleton (span : Span) : stretchesOf #[span] = span.stretches :=
  List.append_nil _

@[simp] theorem stretchesOf_push (spans : Array Span) (span : Span) :
    stretchesOf (spans.push span) = stretchesOf spans ++ span.stretches := by
  simp [stretchesOf]

theorem mem_stretchesOf {spans : Array Span} {r : Stretch} :
    r ∈ stretchesOf spans ↔ ∃ span ∈ spans, r ∈ span.stretches := by
  simp [stretchesOf]

theorem Span.mem_stretches {span : Span} {r : Stretch} :
    r ∈ span.stretches ↔ ∃ h ∈ span.highlights, (⟨span.line.index, h.start, h.stop⟩ : Stretch) = r := by
  simp [stretches]

theorem Span.line_of_mem_stretches {span : Span} {r : Stretch} (h : r ∈ span.stretches) :
    r.line = span.line.index := by
  obtain ⟨highlight, -, rfl⟩ := mem_stretches.1 h
  rfl

@[simp] theorem stretches_ofHighlight (name : String) (line : Line) (h : Highlight) :
    (Excerpt.ofHighlight name line h).stretches = [⟨line.index, h.start, h.stop⟩] := rfl

/-! ## Adding at the end -/

/-- Where no key is greater the search ends at the last element. -/
theorem Slot.narrow_of_le {α : Type} {keyOf : α → Nat} {xs : Array α} {key : Nat}
    (hle : ∀ x ∈ xs, keyOf x ≤ key) {base size : Nat} (hsize : 0 < size) :
    Slot.narrow keyOf xs key base size = base + size - 1 := by
  induction hn : size using Nat.strongRecOn generalizing base size with
  | ind n ih =>
      subst hn
      rw [narrow]
      split
      · next hlt =>
          have hmiddle : ((xs[base + size / 2]?.map fun x =>
              decide (key < keyOf x)).getD false) = false := by
            cases hx : xs[base + size / 2]? with
            | none => rfl
            | some x =>
                have hkey := hle x (Array.mem_of_getElem? hx)
                simpa using hkey
          simp only [hmiddle, Bool.false_eq_true, if_false]
          rw [ih (size - size / 2) (by omega) (by omega) rfl]
          omega
      · omega

/-- A greater key than all has its place behind them. -/
theorem Slot.find_of_lt {α : Type} {keyOf : α → Nat} {xs : Array α} {key : Nat}
    (hlt : ∀ x ∈ xs, keyOf x < key) : Slot.find keyOf xs key = .free xs.size := by
  by_cases hsize : xs.size = 0
  · have hempty : xs = #[] := Array.eq_empty_of_size_eq_zero hsize
    subst hempty
    simp [find]
  · have hlast : narrow keyOf xs key 0 xs.size = xs.size - 1 := by
      rw [narrow_of_le (fun x hx => Nat.le_of_lt (hlt x hx)) (by omega), Nat.zero_add]
    have hbound : xs.size - 1 < xs.size := by omega
    have hkey := hlt _ (Array.getElem_mem hbound)
    simp only [find, hlast, Array.getElem?_eq_getElem hbound, if_neg (Nat.ne_of_lt hkey),
      if_pos hkey]
    congr
    omega

/-- The key of the last element is found there, if no key is greater. -/
theorem Slot.find_push {α : Type} {keyOf : α → Nat} {xs : Array α} {last : α}
    (hle : ∀ x ∈ xs, keyOf x ≤ keyOf last) :
    Slot.find keyOf (xs.push last) (keyOf last) = .taken xs.size := by
  have hall : ∀ x ∈ xs.push last, keyOf x ≤ keyOf last := by
    intro x hx
    rcases Array.mem_push.1 hx with hx | rfl
    · exact hle x hx
    · exact Nat.le_refl _
  have hlast : narrow keyOf (xs.push last) (keyOf last) 0 (xs.push last).size = xs.size := by
    rw [narrow_of_le hall (by simp), Array.size_push]
    omega
  simp only [find, hlast, Array.getElem?_push_size, if_pos]

/-- A highlight that starts at no lower column than the others comes last. -/
theorem Highlight.insert_of_le {h : Highlight} {hs : Array Highlight}
    (hle : ∀ k ∈ hs, k.start ≤ h.start) : h.insert hs = hs.push h := by
  have hcount : countUpTo hs h.start hs.size = hs.size := by
    cases hsize : hs.size with
    | zero => rfl
    | succ n =>
        have hn : n < hs.size := by omega
        simp [countUpTo, Array.getElem?_eq_getElem hn, hle _ (Array.getElem_mem hn)]
  rw [insert]
  simp only [hcount]
  apply Array.ext'
  simp [Array.insertIdx_size_self]

theorem Span.highlightAll_of_le {span : Span} {hs : Array Highlight}
    (hle : (span.highlights ++ hs).toList.Pairwise fun h k => h.start ≤ k.start) :
    span.highlightAll hs = { span with highlights := span.highlights ++ hs } := by
  obtain ⟨hs⟩ := hs
  rw [highlightAll, List.foldl_toArray]
  induction hs generalizing span with
  | nil => simp
  | cons h hs ih =>
      have hfirst : ∀ k ∈ span.highlights, k.start ≤ h.start := by
        intro k hk
        rw [Array.toList_append, List.pairwise_append] at hle
        exact hle.2.2 k (Array.mem_toList_iff.2 hk) h (by simp)
      have hspan : span.highlight h = { span with highlights := span.highlights.push h } := by
        rw [highlight, Highlight.insert_of_le hfirst]
      rw [List.foldl_cons, hspan, ih]
      · simp
      · simpa using hle

/-! ## Spans in line order -/

/-- Spans of lines of a file, in the order of the lines, each with a highlight. -/
structure SpansInOrder (file : File) (spans : Array Span) : Prop where
  line_eq : ∀ span ∈ spans, span.line = file.line span.line.index
  le_lastIndex : ∀ span ∈ spans, span.line.index ≤ file.lastIndex
  shown : ∀ span ∈ spans, span.stretches ≠ []
  apart : spans.toList.Pairwise fun s t => s.line.index < t.line.index

theorem spansInOrder_empty (file : File) : SpansInOrder file #[] :=
  ⟨by simp, by simp, by simp, List.Pairwise.nil⟩

theorem Stretch.Before.line_le {r s : Stretch} (h : r.Before s) : r.line ≤ s.line := by
  rcases h with h | h
  · exact Nat.le_of_lt h
  · exact Nat.le_of_eq h.1

/-- Stretches of one line that come in source order start one after the other. -/
theorem Span.pairwise_start {span : Span} {hs : Array Highlight}
    (h : (span.stretches ++ Span.stretches ⟨span.line, hs⟩).Pairwise Stretch.Before) :
    (span.highlights ++ hs).toList.Pairwise fun h k => h.start ≤ k.start := by
  rw [stretches, stretches, ← List.map_append, List.pairwise_map, ← Array.toList_append] at h
  apply h.imp
  intro h k hbefore
  rcases hbefore with hlt | ⟨-, hlt, -⟩
  · exact absurd hlt (Nat.lt_irrefl _)
  · exact Nat.le_of_lt hlt

/-- A span of a line below all others is added to them. -/
theorem Span.place_of_lt {spans : Array Span} {span : Span}
    (hlt : ∀ s ∈ spans, s.line.index < span.line.index) :
    Span.place spans span = spans.push span := by
  have hfind : Slot.find (·.line.index) spans span.line.index = .free spans.size :=
    Slot.find_of_lt hlt
  rw [place, hfind]
  simp only [Array.insertIdxIfInBounds, Nat.le_refl, dif_pos]
  apply Array.ext'
  simp [Array.insertIdx_size_self]

/-- A span of the last line adds its highlights to those of the line. -/
theorem Span.place_of_eq {front : Array Span} {last span : Span}
    (hle : ∀ s ∈ front, s.line.index ≤ span.line.index) (heq : last.line = span.line)
    (hstarts : (last.highlights ++ span.highlights).toList.Pairwise fun h k => h.start ≤ k.start) :
    Span.place (front.push last) span =
      front.push ⟨last.line, last.highlights ++ span.highlights⟩ := by
  have hfind : Slot.find (·.line.index) (front.push last) span.line.index =
      .taken front.size := by
    rw [← heq]
    apply Slot.find_push
    intro s hs
    rw [heq]
    exact hle s hs
  rw [place, hfind]
  apply Array.ext
  · simp
  · intro i hi _
    simp only [Array.getElem_modify, Array.getElem_push]
    by_cases hlt : i < front.size
    · simp [hlt, Nat.ne_of_gt hlt]
    · have hi' : i = front.size := by
        simp only [Array.size_modify, Array.size_push] at hi
        omega
      simp [hi', last.highlightAll_of_le hstarts]

/-- Spans in order are none, or some and a last one below them. -/
theorem SpansInOrder.eq_empty_or_push {file : File} {spans : Array Span}
    (h : SpansInOrder file spans) :
    spans = #[] ∨ ∃ front last, spans = Array.push front last ∧
      ∀ s ∈ front, s.line.index < last.line.index := by
  by_cases hsize : spans.size = 0
  · exact Or.inl (Array.eq_empty_of_size_eq_zero hsize)
  · obtain ⟨front, last, rfl⟩ := Array.exists_push_of_size_pos (Nat.pos_of_ne_zero hsize)
    refine Or.inr ⟨front, last, rfl, ?_⟩
    intro s hs
    have hapart := h.apart
    rw [Array.toList_push, List.pairwise_append] at hapart
    exact hapart.2.2 s (Array.mem_toList_iff.2 hs) last (by simp)

theorem SpansInOrder.push {file : File} {spans : Array Span} {span : Span}
    (h : SpansInOrder file spans) (hspan : SpansInOrder file #[span])
    (hlt : ∀ s ∈ spans, s.line.index < span.line.index) :
    SpansInOrder file (spans.push span) := by
  refine ⟨?_, ?_, ?_, ?_⟩
  · intro s hs
    rcases Array.mem_push.1 hs with hs | rfl
    · exact h.line_eq s hs
    · exact hspan.line_eq s (by simp)
  · intro s hs
    rcases Array.mem_push.1 hs with hs | rfl
    · exact h.le_lastIndex s hs
    · exact hspan.le_lastIndex s (by simp)
  · intro s hs
    rcases Array.mem_push.1 hs with hs | rfl
    · exact h.shown s hs
    · exact hspan.shown s (by simp)
  · rw [Array.toList_push, List.pairwise_append]
    refine ⟨h.apart, List.pairwise_singleton _ _, ?_⟩
    intro s hs t ht
    rw [List.mem_singleton] at ht
    exact ht ▸ hlt s (Array.mem_toList_iff.1 hs)

theorem SpansInOrder.of_push {file : File} {spans : Array Span} {span : Span}
    (h : SpansInOrder file (spans.push span)) : SpansInOrder file spans := by
  refine ⟨?_, ?_, ?_, ?_⟩
  · intro s hs
    exact h.line_eq s (Array.mem_push.2 (Or.inl hs))
  · intro s hs
    exact h.le_lastIndex s (Array.mem_push.2 (Or.inl hs))
  · intro s hs
    exact h.shown s (Array.mem_push.2 (Or.inl hs))
  · have hapart := h.apart
    rw [Array.toList_push, List.pairwise_append] at hapart
    exact hapart.1

/-- A span whose stretches come behind those of others goes to their end. -/
theorem Span.place_spec {file : File} {spans : Array Span} {span : Span}
    (hspans : SpansInOrder file spans) (hspan : SpansInOrder file #[span])
    (hbefore : (stretchesOf spans ++ span.stretches).Pairwise Stretch.Before) :
    SpansInOrder file (Span.place spans span) ∧
      stretchesOf (Span.place spans span) = stretchesOf spans ++ span.stretches := by
  have hshown := hspan.shown span (by simp)
  have hle : ∀ s ∈ spans, s.line.index ≤ span.line.index := by
    intro s hs
    obtain ⟨r, hr⟩ := List.exists_mem_of_ne_nil _ (hspans.shown s hs)
    obtain ⟨r', hr'⟩ := List.exists_mem_of_ne_nil _ hshown
    rw [List.pairwise_append] at hbefore
    have hline := (hbefore.2.2 r (mem_stretchesOf.2 ⟨s, hs, hr⟩) r' hr').line_le
    rw [line_of_mem_stretches hr, line_of_mem_stretches hr'] at hline
    exact hline
  rcases hspans.eq_empty_or_push with rfl | ⟨front, last, rfl, hfront⟩
  · have hplace : Span.place #[] span = #[].push span := place_of_lt (by simp)
    rw [hplace]
    exact ⟨hspan, by simp⟩
  · have hlast := hle last (by simp)
    rcases Nat.lt_or_eq_of_le hlast with hlt | heq
    · have hall : ∀ s ∈ front.push last, s.line.index < span.line.index := by
        intro s hs
        rcases Array.mem_push.1 hs with hs | rfl
        · exact Nat.lt_trans (hfront s hs) hlt
        · exact hlt
      rw [place_of_lt hall]
      exact ⟨hspans.push hspan hall, by simp⟩
    · have hline : last.line = span.line := by
        rw [hspans.line_eq last (by simp), heq, ← hspan.line_eq span (by simp)]
      have hstretches : Span.stretches ⟨last.line, last.highlights ++ span.highlights⟩ =
          last.stretches ++ span.stretches := by
        simp [stretches, hline]
      have hstarts : (last.highlights ++ span.highlights).toList.Pairwise
          fun h k => h.start ≤ k.start := by
        apply last.pairwise_start
        rw [hline]
        rw [stretchesOf_push, List.append_assoc, List.pairwise_append] at hbefore
        exact hbefore.2.1
      rw [place_of_eq (fun s hs => hle s (Array.mem_push.2 (Or.inl hs))) hline hstarts]
      constructor
      · refine hspans.of_push.push ?_ hfront
        refine ⟨?_, ?_, ?_, by simp⟩
        · simpa using hspans.line_eq last (by simp)
        · simpa using hspans.le_lastIndex last (by simp)
        · simp [hstretches, hshown]
      · rw [stretchesOf_push, stretchesOf_push, hstretches, List.append_assoc]

/-! ## Excerpts in source order -/

/-- An excerpt of a file, or of none, whose stretches come in source order. -/
structure Excerpt.InOrder (file : File) (e : Excerpt) : Prop where
  name : ∀ name ∈ e.file, name = file.name
  spans : SpansInOrder file e.spans
  ordered : e.stretches.Pairwise Stretch.Before

/-- An excerpt of a file whose stretches come in source order. -/
structure Excerpt.Located (file : File) (e : Excerpt) : Prop extends e.InOrder file where
  file_eq : e.file = some file.name

theorem Excerpt.inOrder_detached (file : File) : Excerpt.detached.InOrder file :=
  ⟨by simp [detached], spansInOrder_empty file, List.Pairwise.nil⟩

/-- A stretch of a line of the file. -/
theorem Excerpt.located_ofHighlight {file : File} {index : Nat} {h : Highlight}
    (hindex : (file.line index).index = index) (hle : index ≤ file.lastIndex) :
    (ofHighlight file.name (file.line index) h).Located file := by
  refine ⟨⟨?_, ⟨?_, ?_, ?_, ?_⟩, ?_⟩, rfl⟩
  · rintro name ⟨⟩
    rfl
  · simp [ofHighlight, ofSpans, hindex]
  · simpa [ofHighlight, ofSpans, hindex] using hle
  · simp [ofHighlight, ofSpans, Span.stretches]
  · exact List.pairwise_singleton _ _
  · exact List.pairwise_singleton _ _

/-- Placing spans one after the other puts their stretches behind the others. -/
theorem foldl_place_spec {file : File} {spans : Array Span} {more : List Span}
    (hspans : SpansInOrder file spans) (hmore : SpansInOrder file more.toArray)
    (hbefore : (stretchesOf spans ++ more.flatMap Span.stretches).Pairwise Stretch.Before) :
    SpansInOrder file (more.foldl Span.place spans) ∧
      stretchesOf (more.foldl Span.place spans) =
        stretchesOf spans ++ more.flatMap Span.stretches := by
  induction more generalizing spans with
  | nil => exact ⟨hspans, by simp⟩
  | cons span more ih =>
      have hspan : SpansInOrder file #[span] := by
        refine ⟨?_, ?_, ?_, by simp⟩
        · simpa using hmore.line_eq span (by simp)
        · simpa using hmore.le_lastIndex span (by simp)
        · simpa using hmore.shown span (by simp)
      have hrest : SpansInOrder file more.toArray := by
        refine ⟨?_, ?_, ?_, ?_⟩
        · intro s hs
          exact hmore.line_eq s (by simp_all)
        · intro s hs
          exact hmore.le_lastIndex s (by simp_all)
        · intro s hs
          exact hmore.shown s (by simp_all)
        · exact (List.pairwise_cons.1 hmore.apart).2
      rw [List.flatMap_cons, ← List.append_assoc] at hbefore
      obtain ⟨hplaced, hstretches⟩ :=
        Span.place_spec hspans hspan (List.pairwise_append.1 hbefore).1
      rw [← hstretches] at hbefore
      obtain ⟨hall, hallStretches⟩ := ih hplaced hrest hbefore
      refine ⟨hall, ?_⟩
      rw [List.foldl_cons, hallStretches, hstretches, List.flatMap_cons, List.append_assoc]

theorem Excerpt.absorb_located {e other : Excerpt} {name : String}
    (h : other.file = some name) :
    (e.absorb other).file = some name ∧
      (e.absorb other).spans = other.spans.toList.foldl Span.place e.spans := by
  obtain ⟨file, spans, leading, trailing⟩ := e
  simp only [absorb, h, Array.foldl_toList, and_self]

/-- Adding an excerpt whose stretches come behind appends them. -/
theorem Excerpt.add_spec {file : File} {e other : Excerpt} (he : e.InOrder file)
    (hother : other.Located file)
    (hbefore : (e.stretches ++ other.stretches).Pairwise Stretch.Before) :
    (e.add other).Located file ∧ (e.add other).stretches = e.stretches ++ other.stretches := by
  have hmatch : (e.mismatch? other).isNone = true := by
    rw [mismatch?, hother.file_eq]
    cases hfile : e.file with
    | none => rfl
    | some name => simp [he.name name hfile]
  have hadd : e.add other = e.absorb other := by rw [add, if_pos hmatch]
  obtain ⟨hfile, hspans⟩ := absorb_located (e := e) hother.file_eq
  obtain ⟨hplaced, hstretches⟩ := foldl_place_spec he.spans hother.spans hbefore
  have hall : (e.absorb other).stretches = e.stretches ++ other.stretches := by
    rw [stretches, hspans, hstretches]
    rfl
  rw [hadd]
  refine ⟨⟨⟨?_, hspans ▸ hplaced, hall ▸ hbefore⟩, hfile⟩, hall⟩
  rw [hfile]
  rintro name ⟨⟩
  rfl

theorem Excerpt.foldl_add_spec {file : File} {start : Excerpt} {es : List Excerpt}
    (hstart : start.Located file) (hes : ∀ e ∈ es, e.Located file)
    (hbefore : (start.stretches ++ es.flatMap stretches).Pairwise Stretch.Before) :
    (es.foldl add start).Located file ∧
      (es.foldl add start).stretches = start.stretches ++ es.flatMap stretches := by
  induction es generalizing start with
  | nil => exact ⟨hstart, by simp⟩
  | cons e es ih =>
      rw [List.forall_mem_cons] at hes
      rw [List.flatMap_cons, ← List.append_assoc] at hbefore ⊢
      obtain ⟨hadded, hstretches⟩ :=
        add_spec hstart.toInOrder hes.1 (List.pairwise_append.1 hbefore).1
      rw [← hstretches] at hbefore ⊢
      exact ih hadded hes.2 hbefore

/-- The union of excerpts whose stretches come in source order has all of these
stretches. -/
theorem Excerpt.union_spec {file : File} {es : List Excerpt} (hne : es ≠ [])
    (hlocated : ∀ e ∈ es, e.Located file)
    (hbefore : (es.flatMap stretches).Pairwise Stretch.Before) :
    (union es).Located file ∧ (union es).stretches = es.flatMap stretches := by
  cases es with
  | nil => exact absurd rfl hne
  | cons e es =>
      rw [List.forall_mem_cons] at hlocated
      rw [List.flatMap_cons] at hbefore ⊢
      obtain ⟨hadded, hstretches⟩ := add_spec (inOrder_detached file) hlocated.1
        (List.pairwise_append.1 hbefore).1
      have hfirst : (detached.add e).stretches = e.stretches := hstretches
      rw [← hfirst] at hbefore ⊢
      exact foldl_add_spec hadded hlocated.2 hbefore

end Kiln
