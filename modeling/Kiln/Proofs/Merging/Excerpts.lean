import Kiln.Proofs.Merging.Mismatches
import Kiln.Proofs.Merging.Spans
import Kiln.Source.File

/-!
# Excerpts of one file

Excerpts of one file are merged without loss: a line is covered where one of them covers
it, with the highlights of both sorted together.  The detached excerpt changes nothing, how
merges are grouped does not matter, and their order matters for nothing but the order of
highlights that start at one column, and which lines are shown above and below.
-/

namespace Kiln

/-! ## Well-formed excerpts -/

namespace Excerpt

/-- The highlights on the lines with an index. -/
def highlightsOn (e : Excerpt) (index : Nat) : List Highlight :=
  e.spans.toList.flatMap fun span => if span.line.index = index then span.marks else []

/-- Whether a line with an index is covered. -/
def Covers (e : Excerpt) (index : Nat) : Prop := ∃ span ∈ e.spans, span.line.index = index

/-- Lines in order, each with its highlights in order, and nothing at all without a file. -/
structure WellFormed (e : Excerpt) : Prop where
  ascending : Span.Ascending e.spans.toList
  inOrder : ∀ span ∈ e.spans, Highlight.InOrder span.marks
  eq_detached : e.file = none → e = detached

/-- A well-formed excerpt of the file with a name, or the detached one. -/
structure Named (name : String) (e : Excerpt) : Prop extends e.WellFormed where
  file_eq : ∀ other ∈ e.file, other = name

/-- A well-formed excerpt of a file, or the detached one. -/
structure Of (file : File) (e : Excerpt) : Prop extends e.WellFormed where
  name_eq : ∀ name ∈ e.file, name = file.name
  line_eq : ∀ span ∈ e.spans, span.line = file.line span.line.index

/-- The line of an excerpt with an index. -/
def at? (e : Excerpt) (index : Nat) : Option Span := Span.at? e.spans.toList index

variable {file : File} {e a b c : Excerpt}

theorem wellFormed_detached : detached.WellFormed where
  ascending := List.Pairwise.nil
  inOrder := by simp [detached]
  eq_detached _ := rfl

theorem Of.named (h : e.Of file) : e.Named file.name := ⟨h.toWellFormed, h.name_eq⟩

theorem named_detached (name : String) : detached.Named name :=
  ⟨wellFormed_detached, by simp [detached]⟩

theorem of_detached (file : File) : detached.Of file where
  toWellFormed := wellFormed_detached
  name_eq := by simp [detached]
  line_eq := by simp [detached]

theorem at?_eq_some_iff (h : e.WellFormed) {index : Nat} {span : Span} :
    e.at? index = some span ↔ span ∈ e.spans ∧ span.line.index = index := by
  rw [at?, Span.at?_eq_some_iff h.ascending, Array.mem_toList_iff]

theorem covers_iff {index : Nat} : e.Covers index ↔ (e.at? index).isSome = true := by
  simp [Covers, at?, Span.at?]

/-- The highlights on a line are those of the one line with its index, if any. -/
theorem highlightsOn_eq (h : e.WellFormed) (index : Nat) :
    e.highlightsOn index = ((e.at? index).map Span.marks).getD [] := by
  have hlist : ∀ {spans : List Span}, Span.Ascending spans →
      (spans.flatMap fun span => if span.line.index = index then span.marks else []) =
        ((Span.at? spans index).map Span.marks).getD [] := by
    intro spans hspans
    induction spans with
    | nil => rfl
    | cons span spans ih =>
        obtain ⟨hspan, hrest⟩ := List.pairwise_cons.1 hspans
        rw [List.flatMap_cons, ih hrest]
        by_cases heq : span.line.index = index
        · have hnone : Span.at? spans index = none :=
            Span.at?_eq_none_iff.2 fun s hs => Nat.ne_of_gt (heq ▸ hspan s hs)
          rw [hnone]
          simp [Span.at?, heq]
        · simp [Span.at?, heq]
  exact hlist h.ascending

/-- Well-formed excerpts are known by their files, the line of each index, and the lines
above and below. -/
theorem ext_at? (ha : a.WellFormed) (hb : b.WellFormed) (hfile : a.file = b.file)
    (hat : ∀ index, a.at? index = b.at? index) (hleading : a.leading = b.leading)
    (htrailing : a.trailing = b.trailing) : a = b := by
  have hspans : a.spans = b.spans :=
    Array.toList_inj.1 (Span.ext_at? ha.ascending hb.ascending hat)
  exact (Excerpt.mk.injEq ..).mpr ⟨hfile, hspans, hleading, htrailing⟩

/-! ## Merging two -/

/-- What becomes of the parts of an excerpt that absorbs another one. -/
theorem absorb_eq (a : Excerpt) (hb : b.WellFormed) :
    a.absorb b =
      { file := b.file.or a.file
        spans := b.spans.toList.foldl Span.place a.spans
        leading := if a.leading.isEmpty then b.leading else a.leading
        trailing := if a.trailing.isEmpty then b.trailing else a.trailing } := by
  obtain ⟨file, spans, leading, trailing⟩ := a
  cases hfile : b.file with
  | none =>
      rw [hb.eq_detached hfile]
      simp only [absorb, detached, List.foldl_nil, Option.none_or, Excerpt.mk.injEq, true_and]
      constructor
      · cases leading <;> rfl
      · cases trailing <;> rfl
  | some name => simp [absorb, hfile]

theorem at?_absorb (ha : a.WellFormed) (hb : b.WellFormed) (index : Nat) :
    (a.absorb b).at? index = (a.at? index).merge Span.merge (b.at? index) := by
  rw [absorb_eq a hb]
  exact (Span.at?_foldl_place ha.ascending hb.ascending).2 index

/-- A line of a merged excerpt is that of one of the two, or merged from both. -/
theorem mem_absorb (ha : a.WellFormed) (hb : b.WellFormed) {span : Span}
    (h : span ∈ (a.absorb b).spans) :
    span ∈ a.spans ∨ span ∈ b.spans ∨ ∃ s ∈ a.spans, ∃ t ∈ b.spans, span = s.merge t := by
  have hascending : Span.Ascending (a.absorb b).spans.toList := by
    rw [absorb_eq a hb]
    exact (Span.at?_foldl_place ha.ascending hb.ascending).1
  have hat := (Span.at?_eq_some_iff hascending).2 ⟨Array.mem_toList_iff.2 h, rfl⟩
  rw [← at?, at?_absorb ha hb, Option.merge_eq_some_iff] at hat
  rcases hat with ⟨hs, -⟩ | ⟨-, ht⟩ | ⟨s, t, hs, ht, rfl⟩
  · exact .inl ((at?_eq_some_iff ha).1 hs).1
  · exact .inr (.inl ((at?_eq_some_iff hb).1 ht).1)
  · exact .inr (.inr ⟨s, ((at?_eq_some_iff ha).1 hs).1, t, ((at?_eq_some_iff hb).1 ht).1, rfl⟩)

theorem WellFormed.absorb (ha : a.WellFormed) (hb : b.WellFormed) : (a.absorb b).WellFormed where
  ascending := by
    rw [absorb_eq a hb]
    exact (Span.at?_foldl_place ha.ascending hb.ascending).1
  inOrder span h := by
    rcases mem_absorb ha hb h with hs | ht | ⟨s, hs, t, -, rfl⟩
    · exact ha.inOrder span hs
    · exact hb.inOrder span ht
    · exact Span.inOrder_merge (ha.inOrder s hs)
  eq_detached h := by
    rw [absorb_eq a hb] at h
    have hfiles : b.file = none ∧ a.file = none := by simpa using h
    rw [ha.eq_detached hfiles.2, hb.eq_detached hfiles.1]
    rfl

theorem Named.absorb {name : String} (ha : a.Named name) (hb : b.Named name) :
    (a.absorb b).Named name where
  toWellFormed := ha.toWellFormed.absorb hb.toWellFormed
  file_eq other h := by
    rw [absorb_eq a hb.toWellFormed] at h
    rcases Option.or_eq_some_iff.1 h with h | ⟨-, h⟩
    · exact hb.file_eq other h
    · exact ha.file_eq other h

/-- Excerpts of one file are merged to one of this file. -/
theorem Of.absorb (ha : a.Of file) (hb : b.Of file) : (a.absorb b).Of file where
  toWellFormed := ha.toWellFormed.absorb hb.toWellFormed
  name_eq := (ha.named.absorb hb.named).file_eq
  line_eq span h := by
    rcases mem_absorb ha.toWellFormed hb.toWellFormed h with hs | ht | ⟨s, hs, t, -, rfl⟩
    · exact ha.line_eq span hs
    · exact hb.line_eq span ht
    · rw [Span.line_merge]
      exact ha.line_eq s hs

/-- The highlights on a line are those of both excerpts sorted together. -/
theorem highlightsOn_absorb (ha : a.WellFormed) (hb : b.WellFormed) (index : Nat) :
    (a.absorb b).highlightsOn index =
      Highlight.sort (a.highlightsOn index ++ b.highlightsOn index) := by
  have hinOrder : ∀ {e : Excerpt}, e.WellFormed → ∀ span ∈ e.at? index,
      Highlight.InOrder span.marks :=
    fun he span hspan => he.inOrder span ((at?_eq_some_iff he).1 hspan).1
  rw [highlightsOn_eq (ha.absorb hb), highlightsOn_eq ha, highlightsOn_eq hb, at?_absorb ha hb]
  cases hs : a.at? index with
  | none =>
      cases ht : b.at? index with
      | none => exact (Highlight.sort_eq_self List.Pairwise.nil).symm
      | some t => exact (Highlight.sort_eq_self (hinOrder hb t ht)).symm
  | some s =>
      have hmarks := hinOrder ha s hs
      cases ht : b.at? index with
      | none =>
          simp only [Option.merge_none_right, Option.map_some, Option.map_none, Option.getD_some,
            Option.getD_none, List.append_nil]
          exact (Highlight.sort_eq_self hmarks).symm
      | some t => exact Span.marks_merge hmarks

theorem covers_absorb (ha : a.WellFormed) (hb : b.WellFormed) (index : Nat) :
    (a.absorb b).Covers index ↔ a.Covers index ∨ b.Covers index := by
  rw [covers_iff, covers_iff, covers_iff, at?_absorb ha hb, Option.isSome_merge, Bool.or_eq_true]

/-! ## The laws of merging -/

theorem absorb_detached (a : Excerpt) : a.absorb detached = a := by
  obtain ⟨file, spans, leading, trailing⟩ := a
  rfl

theorem detached_absorb (ha : a.WellFormed) : detached.absorb a = a := by
  refine ext_at? (wellFormed_detached.absorb ha) ha ?_ (fun index => ?_) ?_ ?_
  · rw [absorb_eq detached ha]
    exact Option.or_none
  · rw [at?_absorb wellFormed_detached ha]
    exact Option.merge_none_left
  · rw [absorb_eq detached ha]
    rfl
  · rw [absorb_eq detached ha]
    rfl

theorem absorb_assoc (ha : a.WellFormed) (hb : b.WellFormed) (hc : c.WellFormed) :
    (a.absorb b).absorb c = a.absorb (b.absorb c) := by
  have hab := ha.absorb hb
  have hbc := hb.absorb hc
  refine ext_at? (hab.absorb hc) (ha.absorb hbc) ?_ (fun index => ?_) ?_ ?_
  · rw [absorb_eq _ hc, absorb_eq a hb, absorb_eq a hbc, absorb_eq b hc]
    exact (Option.or_assoc ..).symm
  · rw [at?_absorb hab hc, at?_absorb ha hb, at?_absorb ha hbc, at?_absorb hb hc]
    cases hs : a.at? index with
    | none => simp
    | some s =>
        cases ht : b.at? index with
        | none => simp
        | some t =>
            cases c.at? index with
            | none => simp
            | some u =>
                have hmarks := ha.inOrder s ((at?_eq_some_iff ha).1 hs).1
                have hmarks' := hb.inOrder t ((at?_eq_some_iff hb).1 ht).1
                exact congrArg some (Span.merge_assoc hmarks hmarks')
  · rw [absorb_eq _ hc, absorb_eq a hb, absorb_eq a hbc, absorb_eq b hc]
    cases a.leading <;> rfl
  · rw [absorb_eq _ hc, absorb_eq a hb, absorb_eq a hbc, absorb_eq b hc]
    cases a.trailing <;> rfl

/-! ## Merging excerpts of one name -/

namespace Named

variable {name : String} {es fs : List Excerpt}

/-- Excerpts of one file are never mismatched. -/
theorem mismatch?_eq_none (ha : a.Named name) (hb : b.Named name) : a.mismatch? b = none := by
  rw [mismatch?]
  cases hfile : a.file with
  | none => rfl
  | some left =>
      cases hfile' : b.file with
      | none => rfl
      | some right => exact if_pos ((ha.file_eq left hfile).trans (hb.file_eq right hfile').symm)

theorem add_eq (ha : a.Named name) (hb : b.Named name) : a.add b = a.absorb b := by
  rw [add, ha.mismatch?_eq_none hb]
  rfl

theorem foldl_add_eq (he : e.Named name) (hes : ∀ e ∈ es, e.Named name) :
    (union es).Named name ∧ es.foldl add e = e.absorb (union es) := by
  induction es generalizing e with
  | nil => exact ⟨named_detached name, (absorb_detached e).symm⟩
  | cons first es ih =>
      obtain ⟨hfirst, hrest⟩ := List.forall_mem_cons.1 hes
      obtain ⟨hunion, hfold⟩ := ih ((named_detached name).absorb hfirst) hrest
      obtain ⟨-, hfold'⟩ := ih (he.absorb hfirst) hrest
      have hcons : union (first :: es) = first.absorb (union es) := by
        rw [union, List.foldl_cons, (named_detached name).add_eq hfirst, hfold,
          detached_absorb hfirst.toWellFormed]
      rw [List.foldl_cons, he.add_eq hfirst, hfold', hcons]
      exact ⟨hfirst.absorb hunion,
        absorb_assoc he.toWellFormed hfirst.toWellFormed hunion.toWellFormed⟩

theorem union (hes : ∀ e ∈ es, e.Named name) : (union es).Named name :=
  (foldl_add_eq (named_detached name) hes).1

theorem union_cons (he : e.Named name) (hes : ∀ e ∈ es, e.Named name) :
    Excerpt.union (e :: es) = e.absorb (Excerpt.union es) := by
  rw [Excerpt.union, List.foldl_cons, (named_detached name).add_eq he,
    detached_absorb he.toWellFormed]
  exact (foldl_add_eq he hes).2

/-- The union of a list that is put together from two is merged from their unions. -/
theorem union_append (hes : ∀ e ∈ es, e.Named name) (hfs : ∀ e ∈ fs, e.Named name) :
    Excerpt.union (es ++ fs) = (Excerpt.union es).absorb (Excerpt.union fs) := by
  induction es with
  | nil => exact (detached_absorb (union hfs).toWellFormed).symm
  | cons e es ih =>
      obtain ⟨he, hrest⟩ := List.forall_mem_cons.1 hes
      rw [List.cons_append, union_cons he (List.forall_mem_append.2 ⟨hrest, hfs⟩), ih hrest,
        union_cons he hrest, absorb_assoc he.toWellFormed (union hrest).toWellFormed
          (union hfs).toWellFormed]

end Named

/-! ## Merging excerpts of one file -/

theorem Of.mismatch?_eq_none (ha : a.Of file) (hb : b.Of file) : a.mismatch? b = none :=
  ha.named.mismatch?_eq_none hb.named

theorem Of.merge_eq_ok (ha : a.Of file) (hb : b.Of file) : a.merge b = .ok (a.absorb b) := by
  rw [merge, ha.mismatch?_eq_none hb]

theorem Of.add_eq (ha : a.Of file) (hb : b.Of file) : a.add b = a.absorb b :=
  ha.named.add_eq hb.named

variable {es fs : List Excerpt}

theorem union_cons (he : e.Of file) (hes : ∀ e ∈ es, e.Of file) :
    union (e :: es) = e.absorb (union es) :=
  he.named.union_cons fun e he => (hes e he).named

theorem of_union (hes : ∀ e ∈ es, e.Of file) : (union es).Of file := by
  induction es with
  | nil => exact of_detached file
  | cons e es ih =>
      obtain ⟨he, hrest⟩ := List.forall_mem_cons.1 hes
      rw [union_cons he hrest]
      exact he.absorb (ih hrest)

theorem union_append (hes : ∀ e ∈ es, e.Of file) (hfs : ∀ e ∈ fs, e.Of file) :
    union (es ++ fs) = (union es).absorb (union fs) :=
  Named.union_append (fun e he => (hes e he).named) fun e he => (hfs e he).named

/-- Excerpts of one file can be joined, and their join is their union. -/
theorem join_eq_ok (hes : ∀ e ∈ es, e.Of file) : join es = .ok (union es) := by
  have hname : ∀ name ∈ names es, name = file.name := by
    intro name hname
    obtain ⟨e, he, hfile⟩ := mem_names.1 hname
    exact (hes e he).name_eq name hfile
  refine join_eq_ok_iff.2 ⟨firstMismatch?_eq_none_iff.2 fun m hm n hn => ?_, rfl⟩
  exact (hname m hm).trans (hname n hn).symm

/-- The union of excerpts comes from a file if one of them does. -/
theorem file_union (hes : ∀ e ∈ es, e.Of file) :
    (union es).file = if es.all isDetached then none else some file.name := by
  induction es with
  | nil => rfl
  | cons e es ih =>
      obtain ⟨he, hrest⟩ := List.forall_mem_cons.1 hes
      rw [union_cons he hrest, absorb_eq e (of_union hrest).toWellFormed, List.all_cons, ih hrest]
      cases hfile : e.file with
      | none => simp [isDetached, hfile]
      | some name =>
          rw [he.name_eq name hfile]
          simp only [isDetached, hfile, Option.isNone_some, Bool.false_and, Bool.false_eq_true,
            if_false]
          split <;> rfl

/-- A union has the highlights of all excerpts it is made of. -/
theorem highlightsOn_union (hes : ∀ e ∈ es, e.Of file) (index : Nat) :
    ((union es).highlightsOn index).Perm (es.flatMap (highlightsOn · index)) := by
  induction es with
  | nil => exact .refl _
  | cons e es ih =>
      obtain ⟨he, hrest⟩ := List.forall_mem_cons.1 hes
      rw [union_cons he hrest, highlightsOn_absorb he.toWellFormed (of_union hrest).toWellFormed,
        List.flatMap_cons]
      exact (Highlight.sort_perm _).trans ((ih hrest).append_left _)

/-- In whatever order excerpts are merged, they are of the same file and highlight the
same. -/
theorem union_perm (hes : ∀ e ∈ es, e.Of file) (h : es.Perm fs) :
    (union es).file = (union fs).file ∧
      ∀ index, ((union es).highlightsOn index).Perm ((union fs).highlightsOn index) := by
  have hfs : ∀ e ∈ fs, e.Of file := fun e he => hes e (h.mem_iff.2 he)
  constructor
  · rw [file_union hes, file_union hfs, h.all_eq]
  · intro index
    have hflat := h.flatMap_right fun e : Excerpt => e.highlightsOn index
    exact (highlightsOn_union hes index).trans (hflat.trans (highlightsOn_union hfs index).symm)

/-- Well-formed excerpts of one file form a monoid: two can be merged to a third, with the
highlights of every line sorted together stably; the detached one changes nothing on either
side; and grouping does not matter.  Their order matters neither for the file nor for which
highlights a line has. -/
theorem merge_monoid (ha : a.Of file) (hb : b.Of file) (hc : c.Of file) :
    (∃ m, a.merge b = .ok m ∧ m.Of file ∧
      (∀ index, m.Covers index ↔ a.Covers index ∨ b.Covers index) ∧
      ∀ index, m.highlightsOn index =
        Highlight.sort (a.highlightsOn index ++ b.highlightsOn index)) ∧
    (detached.merge a = .ok a ∧ a.merge detached = .ok a) ∧
    (∃ m, (a.merge b >>= fun ab => ab.merge c) = .ok m ∧
      (b.merge c >>= fun bc => a.merge bc) = .ok m) ∧
    ∀ es fs : List Excerpt, (∀ e ∈ es, e.Of file) → es.Perm fs →
      ∃ m n, join es = .ok m ∧ join fs = .ok n ∧ m.file = n.file ∧
        ∀ index, (m.highlightsOn index).Perm (n.highlightsOn index) := by
  refine ⟨⟨a.absorb b, ha.merge_eq_ok hb, ha.absorb hb, ?_, ?_⟩, ⟨?_, ?_⟩,
    ⟨(a.absorb b).absorb c, ?_, ?_⟩, ?_⟩
  · exact covers_absorb ha.toWellFormed hb.toWellFormed
  · exact highlightsOn_absorb ha.toWellFormed hb.toWellFormed
  · rw [(of_detached file).merge_eq_ok ha, detached_absorb ha.toWellFormed]
  · rw [ha.merge_eq_ok (of_detached file), absorb_detached]
  · rw [ha.merge_eq_ok hb]
    exact (ha.absorb hb).merge_eq_ok hc
  · rw [hb.merge_eq_ok hc, absorb_assoc ha.toWellFormed hb.toWellFormed hc.toWellFormed]
    exact ha.merge_eq_ok (hb.absorb hc)
  · intro es fs hes h
    have hfs : ∀ e ∈ fs, e.Of file := fun e he => hes e (h.mem_iff.2 he)
    obtain ⟨hfile, hhighlights⟩ := union_perm hes h
    exact ⟨union es, union fs, join_eq_ok hes, join_eq_ok hfs, hfile, hhighlights⟩

theorem of_ofHighlight {index : Nat} (h : Highlight)
    (hindex : (file.line index).index = index) :
    (ofHighlight file.name (file.line index) h).Of file where
  ascending := List.pairwise_singleton _ _
  inOrder := by simp [ofHighlight, ofSpans, Highlight.InOrder, Span.marks]
  eq_detached h := by cases h
  name_eq := by simp [ofHighlight, ofSpans]
  line_eq := by simp [ofHighlight, ofSpans, hindex]

/-- A file of two lines. -/
def twoLines : File := File.ofText "a.kn" "ab\ncd"

/-- A highlight of a line of `twoLines`. -/
def ofTwoLines (index : Nat) (h : Highlight) : Excerpt :=
  ofHighlight twoLines.name (twoLines.line index) h

/-- Of two highlights that start at one column the first one stays in front; a line above
goes above. -/
theorem merge_monoid_twoLines :
    (ofTwoLines 1 ⟨0, 2⟩).Of twoLines ∧ (ofTwoLines 1 ⟨0, 1⟩).Of twoLines ∧
      (ofTwoLines 0 ⟨1, 1⟩).Of twoLines ∧
      ∃ m, (ofTwoLines 1 ⟨0, 2⟩).merge (ofTwoLines 1 ⟨0, 1⟩) = .ok m ∧
        m.highlightsOn 1 = [⟨0, 2⟩, ⟨0, 1⟩] ∧ ∃ n, m.merge (ofTwoLines 0 ⟨1, 1⟩) = .ok n := by
  have ha : (ofTwoLines 1 ⟨0, 2⟩).Of twoLines := of_ofHighlight _ rfl
  have hb : (ofTwoLines 1 ⟨0, 1⟩).Of twoLines := of_ofHighlight _ rfl
  have hc : (ofTwoLines 0 ⟨1, 1⟩).Of twoLines := of_ofHighlight _ rfl
  obtain ⟨⟨m, hm, -, -, hhighlights⟩, -, ⟨n, hn, -⟩, -⟩ := merge_monoid ha hb hc
  rw [hm] at hn
  refine ⟨ha, hb, hc, m, hm, ?_, n, hn⟩
  have hinOrder : Highlight.InOrder [⟨0, 2⟩, ⟨0, 1⟩] := by simp [Highlight.InOrder]
  exact (hhighlights 1).trans (Highlight.sort_eq_self hinOrder)

end Excerpt
end Kiln
