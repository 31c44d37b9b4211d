import Kiln.Proofs.Comparison.Differences
import Kiln.Grammar.Expression
import Kiln.Proofs.Merging.Leaves

/-!
# Where differences are reported

Only the actual tree of a comparison has to know where it stands.  A difference is reported
where a node of this tree stands, which is made of some of the leaves of the whole tree.  So
whatever a report highlights is highlighted by the tree as well, and expected trees that are
the same up to places give the same report.
-/

namespace Kiln

open Comparison Leafy Stepwise

/-! ## Parts of a tree -/

namespace Excerpt

variable {file : File} {root e : Excerpt} {es : List Excerpt} {index : Nat} {h : Highlight}

theorem mem_highlightsOn :
    h ∈ e.highlightsOn index ↔ ∃ span ∈ e.spans, span.line.index = index ∧ h ∈ span.highlights := by
  simp only [highlightsOn, List.mem_flatMap, Array.mem_toList_iff, Span.marks]
  refine exists_congr fun span => and_congr_right fun _ => ?_
  by_cases hindex : span.line.index = index <;> simp [hindex]

/-- An excerpt of a file, not the detached one, with a highlight. -/
structure Shows (file : File) (e : Excerpt) : Prop extends e.Of file where
  file_eq : e.file = some file.name
  shown : ∃ index h, h ∈ e.highlightsOn index

theorem shows_ofHighlight (h : Highlight) (hindex : (file.line index).index = index) :
    (ofHighlight file.name (file.line index) h).Shows file where
  toOf := of_ofHighlight h hindex
  file_eq := rfl
  shown := ⟨index, h, by simp [mem_highlightsOn, ofHighlight, ofSpans, hindex]⟩

theorem shows_union (hne : es ≠ []) (hes : ∀ e ∈ es, e.Shows file) : (union es).Shows file := by
  have hof : ∀ e ∈ es, e.Of file := fun e he => (hes e he).toOf
  obtain ⟨first, hfirst⟩ := List.exists_mem_of_ne_nil es hne
  refine ⟨of_union hof, ?_, ?_⟩
  · have hlocated : ¬es.all isDetached := by
      intro hall
      have hdetached := List.all_eq_true.1 hall first hfirst
      rw [isDetached, (hes first hfirst).file_eq] at hdetached
      cases hdetached
    rw [file_union hof, if_neg hlocated]
  · obtain ⟨index, h, hshown⟩ := (hes first hfirst).shown
    exact ⟨index, h, (highlightsOn_union hof index).mem_iff.2
      (List.mem_flatMap.2 ⟨first, hfirst, hshown⟩)⟩

/-- What is highlighted has a position. -/
theorem Shows.position?_eq (he : e.Shows file) :
    ∃ line column : Nat, e.position? = some (file.name ++ ":" ++ toString line ++ ":" ++
      toString column) := by
  obtain ⟨index, h, hshown⟩ := he.shown
  obtain ⟨span, hspan, -⟩ := mem_highlightsOn.1 hshown
  have hpos : 0 < e.spans.size := Array.size_pos_of_mem hspan
  rw [position?, he.file_eq, start?, Array.getElem?_eq_getElem hpos]
  exact ⟨_, _, rfl⟩

/-- A part of an excerpt, its root: all its highlights are highlights of the root. -/
structure Within (file : File) (e root : Excerpt) : Prop extends e.Shows file where
  subset : ∀ index, e.highlightsOn index ⊆ root.highlightsOn index

theorem within_union (hne : es ≠ []) (hes : ∀ e ∈ es, e.Within file root) :
    (union es).Within file root where
  toShows := shows_union hne fun e he => (hes e he).toShows
  subset index h hmem := by
    have hof : ∀ e ∈ es, e.Of file := fun e he => (hes e he).toOf
    obtain ⟨e, he, hmem⟩ := List.mem_flatMap.1 ((highlightsOn_union hof index).mem_iff.1 hmem)
    exact (hes e he).subset index hmem

/-- Excerpts are parts of their union. -/
theorem within_of_mem (hes : ∀ e ∈ es, e.Shows file) (he : e ∈ es) : e.Within file (union es) where
  toShows := hes e he
  subset index h hmem := by
    have hof : ∀ e ∈ es, e.Of file := fun e he => (hes e he).toOf
    exact (highlightsOn_union hof index).mem_iff.2 (List.mem_flatMap.2 ⟨e, he, hmem⟩)

/-- Whatever a part highlights the root highlights on the same line. -/
theorem Within.exists_span (he : e.Within file root) (hroot : root.Of file) {span : Span}
    (hspan : span ∈ e.spans) (hmem : h ∈ span.highlights) :
    ∃ span' ∈ root.spans, span'.line = span.line ∧ h ∈ span'.highlights := by
  have hshown := mem_highlightsOn.2 ⟨span, hspan, rfl, hmem⟩
  obtain ⟨span', hspan', hindex, hmem'⟩ := mem_highlightsOn.1 (he.subset _ hshown)
  refine ⟨span', hspan', ?_, hmem'⟩
  rw [hroot.line_eq span' hspan', hindex, ← he.line_eq span hspan]

end Excerpt

variable {file : File} {root : Excerpt} {anchor : Anchor}

/-- A node whose leaves are parts of an excerpt stands at a part of it. -/
theorem Leafy.within_excerpt {α : Type} [Node α] [Leafy α] {a : α} (hne : leaves a ≠ [])
    (h : ∀ e ∈ leaves a, e.Within file root) : (Node.excerpt a).Within file root := by
  rw [excerpt_eq_union fun e he => (h e he).toOf]
  exact Excerpt.within_union hne h

/-! ## Where comparisons are made -/

namespace Comparison

/-- Where a comparison is made. -/
def place : Comparison → Excerpt
  | .token actual _ _ => actual.excerpt
  | .value _ _ place => place
  | .count _ _ _ place => place
  | .otherKind _ _ place => place
  | .missing _ place => place
  | .unexpected _ place => place

/-- A comparison that fails is reported where it is made. -/
theorem excerpt_of_report? {c : Comparison} {d : Diagnostic} (h : c.report? = some d) :
    d.main.excerpt = c.place := by
  cases c with
  | token actual kind text =>
      rw [report?] at h
      split at h
      · cases h
      · split at h <;> cases h <;> rfl
  | value actual expected place =>
      rw [report?] at h
      split at h <;> cases h
      rfl
  | count noun actual expected place =>
      simp only [report?] at h
      split at h <;> cases h
      rfl
  | otherKind actual expected place =>
      cases h
      rfl
  | missing expected place =>
      cases h
      rfl
  | unexpected actual place =>
      cases h
      rfl

end Comparison

/-- Comparisons that are all made at parts of an excerpt. -/
def MadeWithin (file : File) (root : Excerpt) (comparisons : List Comparison) : Prop :=
  ∀ c ∈ comparisons, c.place.Within file root

theorem MadeWithin.append {cs ds : List Comparison} (hcs : MadeWithin file root cs)
    (hds : MadeWithin file root ds) : MadeWithin file root (cs ++ ds) :=
  List.forall_mem_append.2 ⟨hcs, hds⟩

/-- A kind of node that has leaves, and that is compared where it stands itself, where some of
its leaves stand, or at the anchor. -/
class Anchored (α : Type) [Comparable α] [Stepwise α] [Leafy α] : Prop where
  leaves_ne_nil : ∀ a : α, leaves a ≠ []
  madeWithin_of_place : ∀ {file root anchor} {actual : α} (expected : α),
    (∀ e ∈ leaves actual, e.Within file root) → (Node.excerpt actual).Within file root →
    (anchor ()).Within file root → MadeWithin file root (comparisons anchor actual expected)

namespace Anchored

variable {α : Type} [Comparable α] [Stepwise α] [Leafy α] [Anchored α]

/-- If all leaves of a node are parts of an excerpt, and the anchor is, too, the node is
compared at parts of it. -/
theorem madeWithin {actual : α} (expected : α) (h : ∀ e ∈ leaves actual, e.Within file root)
    (hanchor : (anchor ()).Within file root) :
    MadeWithin file root (comparisons anchor actual expected) :=
  madeWithin_of_place expected h (within_excerpt (leaves_ne_nil actual) h) hanchor

theorem madeWithin_child {actual : Option α} (expected : Option α)
    (h : ∀ e ∈ actual.toList.flatMap leaves, e.Within file root)
    (hanchor : (anchor ()).Within file root) :
    MadeWithin file root (childComparisons anchor actual expected) := by
  cases actual with
  | none =>
      cases expected with
      | none => exact List.forall_mem_nil _
      | some expected => exact List.forall_mem_singleton.2 hanchor
  | some actual =>
      rw [Option.toList_some, List.flatMap_singleton] at h
      cases expected with
      | none => exact List.forall_mem_singleton.2 (within_excerpt (leaves_ne_nil actual) h)
      | some expected => exact madeWithin expected h hanchor

theorem madeWithin_zipWith {actuals : List α} (expecteds : List α)
    (h : ∀ e ∈ actuals.flatMap leaves, e.Within file root)
    (hanchor : (anchor ()).Within file root) :
    MadeWithin file root (List.zipWith (comparisons anchor) actuals expecteds).flatten := by
  induction actuals generalizing expecteds with
  | nil => exact List.forall_mem_nil _
  | cons actual actuals ih =>
      obtain ⟨hfirst, hrest⟩ := List.forall_mem_append.1 h
      cases expecteds with
      | nil => exact List.forall_mem_nil _
      | cons expected expecteds =>
          exact (madeWithin expected hfirst hanchor).append (ih expecteds hrest)

theorem madeWithin_list {actuals : List α} (noun : String) (expecteds : List α)
    (h : ∀ e ∈ actuals.flatMap leaves, e.Within file root)
    (hanchor : (anchor ()).Within file root) :
    MadeWithin file root (listComparisons anchor noun actuals expecteds) := by
  refine List.forall_mem_cons.2 ⟨?_, ?_⟩
  · -- a list is counted where its elements stand, and at the anchor if it has none
    cases actuals with
    | nil => exact hanchor
    | cons actual actuals =>
        refine Excerpt.within_union (List.cons_ne_nil _ _) ?_
        refine List.forall_mem_map.2 fun a ha => within_excerpt (leaves_ne_nil a) fun e he => ?_
        exact h e (List.mem_flatMap.2 ⟨a, ha, he⟩)
  · split
    · exact madeWithin_zipWith expecteds h hanchor
    · exact List.forall_mem_nil _

end Anchored

open Anchored

/-! ## Types and lists -/

instance : Anchored Token where
  leaves_ne_nil _ := List.cons_ne_nil _ _
  madeWithin_of_place _ _ hplace _ := List.forall_mem_singleton.2 hplace

instance : Anchored TypeName where
  leaves_ne_nil t := List.append_ne_nil_of_right_ne_nil _ (leaves_ne_nil t.base)
  madeWithin_of_place expected h hplace _ := by
    obtain ⟨hstars, hbase⟩ := List.forall_mem_append.1 h
    exact (madeWithin_list "pointer" expected.stars hstars hplace).append
      (madeWithin expected.base hbase hplace)

instance : Anchored Argument where
  leaves_ne_nil a := List.append_ne_nil_of_left_ne_nil (leaves_ne_nil a.name) _
  madeWithin_of_place expected h hplace _ := by
    obtain ⟨hname, h⟩ := List.forall_mem_append.1 h
    obtain ⟨htype, hcomma⟩ := List.forall_mem_append.1 h
    exact (madeWithin expected.name hname hplace).append
      ((madeWithin expected.type htype hplace).append
        (madeWithin_child expected.comma hcomma hplace))

instance : Anchored ReturnType where
  leaves_ne_nil r := List.append_ne_nil_of_left_ne_nil (leaves_ne_nil r.type) _
  madeWithin_of_place expected h hplace _ := by
    obtain ⟨htype, hcomma⟩ := List.forall_mem_append.1 h
    exact (madeWithin expected.type htype hplace).append
      (madeWithin_child expected.comma hcomma hplace)

instance : Anchored ReturnTypes where
  leaves_ne_nil r := List.append_ne_nil_of_right_ne_nil _ (leaves_ne_nil r.closer)
  madeWithin_of_place expected h hplace _ := by
    obtain ⟨h, -⟩ := List.forall_mem_append.1 h
    obtain ⟨-, htypes⟩ := List.forall_mem_append.1 h
    exact madeWithin_list "return type" expected.types htypes hplace

theorem Expression.leaves_ne_nil (e : Expression) : leaves e ≠ [] := by
  intro h
  obtain ⟨t, ht⟩ := List.exists_mem_of_ne_nil _ e.tokens_ne_nil
  exact List.cons_ne_nil _ _ (List.flatMap_eq_nil_iff.1 h t ht)

theorem Expression.madeWithin {actual : Expression} (expected : Expression)
    (h : ∀ e ∈ leaves actual, e.Within file root) :
    MadeWithin file root (actual.comparisons expected) := by
  induction actual generalizing expected with
  | leaf t =>
      cases expected with
      | leaf u => exact List.forall_mem_singleton.2 (h _ (List.mem_singleton_self t.excerpt))
      | binary left operator right =>
          exact List.forall_mem_singleton.2 (within_excerpt (Expression.leaves_ne_nil _) h)
  | binary left operator right ihl ihr =>
      cases expected with
      | leaf u => exact List.forall_mem_singleton.2 (within_excerpt (Expression.leaves_ne_nil _) h)
      | binary left' operator' right' =>
          replace h : ∀ e ∈ (binary left operator right).tokens.flatMap leaves,
            e.Within file root := h
          rw [tokens_binary, List.flatMap_append, List.flatMap_cons] at h
          obtain ⟨hleft, h⟩ := List.forall_mem_append.1 h
          obtain ⟨hoperator, hright⟩ := List.forall_mem_append.1 h
          refine (ihl left' hleft).append (List.forall_mem_cons.2 ⟨?_, ihr right' hright⟩)
          exact hoperator _ (List.mem_singleton_self operator.excerpt)

instance : Anchored Expression where
  leaves_ne_nil := Expression.leaves_ne_nil
  madeWithin_of_place expected h _ _ := Expression.madeWithin expected h

instance : Anchored ListedValue where
  leaves_ne_nil v := List.append_ne_nil_of_left_ne_nil (leaves_ne_nil v.expression) _
  madeWithin_of_place expected h hplace _ := by
    obtain ⟨hexpression, hcomma⟩ := List.forall_mem_append.1 h
    exact (madeWithin expected.expression hexpression hplace).append
      (madeWithin_child expected.comma hcomma hplace)

/-! ## Functions -/

instance : Anchored ReturnStatement where
  leaves_ne_nil s := List.append_ne_nil_of_left_ne_nil (leaves_ne_nil s.keyword) _
  madeWithin_of_place expected h hplace _ := by
    obtain ⟨-, hvalues⟩ := List.forall_mem_append.1 h
    exact madeWithin_list "expression" expected.values.values hvalues hplace

instance : Anchored FunctionDecl where
  leaves_ne_nil f := List.append_ne_nil_of_right_ne_nil _ (leaves_ne_nil f.closeBrace)
  madeWithin_of_place expected h hplace _ := by
    obtain ⟨h, -⟩ := List.forall_mem_append.1 h
    obtain ⟨h, hstatements⟩ := List.forall_mem_append.1 h
    obtain ⟨h, -⟩ := List.forall_mem_append.1 h
    obtain ⟨h, hreturns⟩ := List.forall_mem_append.1 h
    obtain ⟨h, -⟩ := List.forall_mem_append.1 h
    obtain ⟨h, harguments⟩ := List.forall_mem_append.1 h
    obtain ⟨-, h⟩ := List.forall_mem_cons.1 h
    obtain ⟨hname, -⟩ := List.forall_mem_cons.1 h
    exact (madeWithin expected.name (List.forall_mem_singleton.2 hname) hplace).append
      ((madeWithin_list "argument" expected.arguments harguments hplace).append
        ((madeWithin_child expected.returns hreturns hplace).append
          (madeWithin_list "statement" expected.statements hstatements hplace)))

/-! ## Directives -/

instance : Anchored DirectiveHead where
  leaves_ne_nil h := List.cons_ne_nil _ _
  madeWithin_of_place expected h _ hanchor := by
    obtain ⟨-, hname⟩ := List.forall_mem_cons.1 h
    exact madeWithin expected.name hname hanchor

instance : Anchored Inclusion where
  leaves_ne_nil i := List.append_ne_nil_of_left_ne_nil (leaves_ne_nil i.head) _
  madeWithin_of_place expected h hplace _ := by
    obtain ⟨hhead, h⟩ := List.forall_mem_append.1 h
    obtain ⟨hopener, h⟩ := List.forall_mem_cons.1 h
    obtain ⟨hpath, -⟩ := List.forall_mem_cons.1 h
    exact (madeWithin expected.head hhead hplace).append
      (List.forall_mem_cons.2 ⟨hopener,
        madeWithin expected.path (List.forall_mem_singleton.2 hpath) hplace⟩)

instance : Anchored BlockBody where
  leaves_ne_nil _ := List.cons_ne_nil _ _
  madeWithin_of_place _ _ hplace _ := List.forall_mem_singleton.2 hplace

instance : Anchored InlineBlock where
  leaves_ne_nil b := List.append_ne_nil_of_right_ne_nil _ (List.cons_ne_nil b.ending [])
  madeWithin_of_place expected h hplace _ := by
    obtain ⟨h, -⟩ := List.forall_mem_append.1 h
    obtain ⟨h, hbody⟩ := List.forall_mem_append.1 h
    obtain ⟨hhead, htag⟩ := List.forall_mem_append.1 h
    exact (madeWithin expected.head hhead hplace).append
      ((madeWithin expected.tag htag hplace).append
        (madeWithin_child expected.body hbody hplace))

/-! ## Declarations and documents -/

instance : Anchored Directive where
  leaves_ne_nil
    | .inclusion i => leaves_ne_nil i
    | .inlineBlock b => leaves_ne_nil b
  madeWithin_of_place {_ _ _ actual} expected h hplace hanchor := by
    cases actual with
    | inclusion i =>
        cases expected with
        | inclusion i' => exact madeWithin i' h hanchor
        | inlineBlock b => exact List.forall_mem_singleton.2 hplace
    | inlineBlock b =>
        cases expected with
        | inclusion i => exact List.forall_mem_singleton.2 hplace
        | inlineBlock b' => exact madeWithin b' h hanchor

instance : Anchored Declaration where
  leaves_ne_nil
    | .function f => leaves_ne_nil f
    | .directive d => leaves_ne_nil d
  madeWithin_of_place {_ _ _ actual} expected h hplace hanchor := by
    cases actual with
    | function f =>
        cases expected with
        | function f' => exact madeWithin f' h hanchor
        | directive d => exact List.forall_mem_singleton.2 hplace
    | directive d =>
        cases expected with
        | function f => exact List.forall_mem_singleton.2 hplace
        | directive d' => exact madeWithin d' h hanchor

/-- Comparing a document gives the report of one of the comparisons. -/
theorem Document.exists_of_expect {actual expected : Document} {d : Diagnostic}
    (h : actual.expect expected = .error d) :
    ∃ c ∈ comparisons (Node.anchor actual) actual expected, c.report? = some d := by
  replace h : Kiln.expect (Node.anchor actual) actual expected = .error d := h
  rw [expect_eq_first?] at h
  cases hfirst : first? (comparisons (Node.anchor actual) actual expected) with
  | none =>
      rw [hfirst] at h
      cases h
  | some first =>
      rw [hfirst] at h
      cases h
      exact List.exists_of_findSome?_eq_some hfirst

/-- Whatever a document that has declarations lacks is reported at a part of it. -/
theorem Document.within_of_expect {actual expected : Document} {d : Diagnostic}
    (hleaves : ∀ e ∈ leaves actual, e.Shows file) (hne : actual.declarations ≠ [])
    (h : actual.expect expected = .error d) :
    d.main.excerpt.Within file (Node.excerpt actual) := by
  have hof : ∀ e ∈ leaves actual, e.Of file := fun e he => (hleaves e he).toOf
  have hwithin : ∀ e ∈ leaves actual, e.Within file (Node.excerpt actual) := by
    rw [excerpt_eq_union hof]
    exact fun e he => Excerpt.within_of_mem hleaves he
  obtain ⟨first, hfirst⟩ := List.exists_mem_of_ne_nil _ hne
  have hne : leaves actual ≠ [] := by
    intro hnil
    -- the first declaration has a leaf
    exact leaves_ne_nil first (List.flatMap_eq_nil_iff.1 hnil first hfirst)
  have hplace : (Node.excerpt actual).Within file (Node.excerpt actual) :=
    within_excerpt hne hwithin
  obtain ⟨c, hc, hreport⟩ := Document.exists_of_expect h
  rw [excerpt_of_report? hreport]
  exact madeWithin_list "declaration" expected.declarations hwithin hplace c hc

/-- A document without declarations is reported nowhere. -/
theorem Document.excerpt_of_expect_nil {actual expected : Document} {d : Diagnostic}
    (hnil : actual.declarations = []) (h : actual.expect expected = .error d) :
    d.main.excerpt = .detached := by
  obtain ⟨declarations⟩ := actual
  subst hnil
  obtain ⟨c, hc, hreport⟩ := Document.exists_of_expect h
  rw [excerpt_of_report? hreport]
  replace hc : c ∈ listComparisons (Node.anchor (Document.mk [])) "declaration"
    ([] : List Declaration) expected.declarations := hc
  -- there are no elements to compare, and the length is that of the document as a whole
  have hlength : c = .count "declaration" 0 expected.declarations.length
      (Node.excerpt (Document.mk [])) := by
    simpa [listComparisons, Node.anchor] using hc
  rw [hlength]
  rfl

end Kiln
