import Kiln.Excerpt.Union

/-!
# Excerpts of several files

Merging changes an excerpt part by part, and can fail; but it fails before anything is changed
(`Excerpt.mergeInPlace`).  What a join of excerpts does is settled by the files that they name,
one after the other: it fails if one of them is not the first, and its error names the first file
and the first other one (`firstMismatch?`).  If it does not fail it is the union; and the union of
any excerpts is the join of those that are left when excerpts of other files than the first are
taken out.
-/

namespace Kiln
namespace Excerpt

variable {e a b : Excerpt} {es : List Excerpt} {name : String}

/-! ## Merging in place -/

/-- An operation on an excerpt that is changed part by part.  If the operation fails, what has been
changed so far stays changed. -/
abbrev InPlace := EStateM FileMismatch Excerpt Unit

/-- Adds a span. -/
def placeSpan (span : Span) : InPlace :=
  modify fun e => { e with spans := Span.place e.spans span }

/-- Takes over the lines of an excerpt. -/
def takeLines (other : Excerpt) : InPlace := do
  other.spans.toList.forM placeSpan
  if (← get).leading.isEmpty then
    modify fun e => { e with leading := other.leading }
  if (← get).trailing.isEmpty then
    modify fun e => { e with trailing := other.trailing }

/-- Adds an excerpt of the same file, of which the file is taken over before the lines. -/
def mergeInPlace (other : Excerpt) : InPlace := do
  match (← get).file, other.file with
  | _, none => return
  | none, some name => modify fun e => { e with file := some name }
  | some left, some right => if left ≠ right then throw ⟨left, right⟩
  takeLines other

theorem run_placeSpans (spans : List Span) (e : Excerpt) :
    (spans.forM placeSpan).run e = .ok () { e with spans := spans.foldl Span.place e.spans } := by
  induction spans generalizing e with
  | nil => rfl
  | cons span spans ih => exact ih { e with spans := Span.place e.spans span }

theorem run_takeLines (e other : Excerpt) :
    (takeLines other).run e = .ok ()
      { e with
        spans := other.spans.foldl Span.place e.spans
        leading := if e.leading.isEmpty then other.leading else e.leading
        trailing := if e.trailing.isEmpty then other.trailing else e.trailing } := by
  obtain ⟨file, spans, leading, trailing⟩ := e
  rw [takeLines, EStateM.run_bind, run_placeSpans, Array.foldl_toList]
  cases leading with
  | nil => cases trailing <;> rfl
  | cons line leading => cases trailing <;> rfl

/-- In place or not, the same comes out, and an excerpt with which merging fails is left as it
is. -/
theorem run_mergeInPlace (e other : Excerpt) :
    (mergeInPlace other).run e =
      match e.merge other with
      | .ok merged => .ok () merged
      | .error mismatch => .error mismatch e := by
  obtain ⟨file, spans, leading, trailing⟩ := e
  rw [mergeInPlace, merge, mismatch?]
  cases hother : other.file with
  | none =>
      simp only [absorb, hother]
      rfl
  | some right =>
      cases file with
      | none => simp [absorb, hother, run_takeLines]
      | some left =>
          by_cases heq : left = right
          · simp [absorb, hother, heq, run_takeLines]
          · simp [heq]

/-! ## Merging and adding -/

theorem absorb_of_file_eq_none (h : a.file = none) : e.absorb a = e := by
  simp only [absorb, h]

theorem file_absorb (h : a.file = some name) : (e.absorb a).file = some name := by
  simp only [absorb, h]

/-- To merge a detached excerpt changes nothing; to merge one of the same file, or any into a
detached one, gives an excerpt of its file; and to merge one of another file fails. -/
theorem merge_cases (e other : Excerpt) :
    (other.file = none ∧ e.merge other = .ok e) ∨
    (∃ name merged, other.file = some name ∧ (e.file = none ∨ e.file = some name) ∧
      e.merge other = .ok merged ∧ merged.file = some name) ∨
    ∃ left right, e.file = some left ∧ other.file = some right ∧ left ≠ right ∧
      e.merge other = .error ⟨left, right⟩ := by
  rw [merge, mismatch?]
  cases hother : other.file with
  | none =>
      rw [absorb_of_file_eq_none hother]
      refine Or.inl ⟨rfl, ?_⟩
      cases e.file <;> rfl
  | some right =>
      refine Or.inr ?_
      cases e.file with
      | none => exact Or.inl ⟨right, _, rfl, Or.inl rfl, rfl, file_absorb hother⟩
      | some left =>
          by_cases heq : left = right
          · subst heq
            exact Or.inl ⟨left, e.absorb other, rfl, Or.inr rfl, by simp, file_absorb hother⟩
          · exact Or.inr ⟨left, right, rfl, rfl, heq, by simp [heq]⟩

theorem add_of_merge_eq_ok {merged : Excerpt} (h : e.merge a = .ok merged) : e.add a = merged := by
  rw [merge] at h
  rw [add]
  split at h
  · next hnone =>
      cases h
      rw [hnone]
      rfl
  · cases h

theorem add_of_merge_eq_error {mismatch : FileMismatch} (h : e.merge a = .error mismatch) :
    e.add a = e := by
  rw [merge] at h
  rw [add]
  split at h
  · cases h
  · next hsome =>
      rw [hsome]
      rfl

/-! ## Files of excerpts -/

/-- The files that excerpts name, one after the other. -/
def names (es : List Excerpt) : List String := es.filterMap (·.file)

/-- The first of the files that are named, with the first other one behind it. -/
def firstMismatch? : List String → Option FileMismatch
  | [] => none
  | left :: rest => (rest.find? (· != left)).map (⟨left, ·⟩)

theorem mem_names {name : String} : name ∈ names es ↔ ∃ e ∈ es, e.file = some name :=
  List.mem_filterMap

theorem firstMismatch?_eq_some_iff {files : List String} {mismatch : FileMismatch} :
    firstMismatch? files = some mismatch ↔
      files.head? = some mismatch.left ∧
        files.find? (· != mismatch.left) = some mismatch.right := by
  obtain ⟨left, right⟩ := mismatch
  cases files with
  | nil => simp [firstMismatch?]
  | cons first rest =>
      simp only [firstMismatch?, Option.map_eq_some_iff, FileMismatch.mk.injEq, List.head?_cons,
        Option.some_inj]
      constructor
      · rintro ⟨other, hother, rfl, rfl⟩
        exact ⟨rfl, by simpa using hother⟩
      · rintro ⟨rfl, hother⟩
        exact ⟨right, by simpa using hother, rfl, rfl⟩

theorem firstMismatch?_eq_none_iff {files : List String} :
    firstMismatch? files = none ↔ ∀ m ∈ files, ∀ n ∈ files, m = n := by
  cases files with
  | nil => simp [firstMismatch?]
  | cons first rest =>
      simp only [firstMismatch?, Option.map_eq_none_iff, List.find?_eq_none]
      constructor
      · intro h
        have hfirst : ∀ m ∈ first :: rest, m = first :=
          List.forall_mem_cons.2 ⟨rfl, fun m hm => by simpa using h m hm⟩
        exact fun m hm n hn => (hfirst m hm).trans (hfirst n hn).symm
      · intro h m hm
        simpa using h m (List.mem_cons_of_mem _ hm) first List.mem_cons_self

theorem names_cons_of_none (h : e.file = none) (es : List Excerpt) : names (e :: es) = names es :=
  List.filterMap_cons_none h

theorem names_cons_of_some (h : e.file = some name) (es : List Excerpt) :
    names (e :: es) = name :: names es :=
  List.filterMap_cons_some h

/-- Merging one excerpt after the other fails at the first file that is not the first one, and does
the same as adding them if there is none. -/
theorem foldlM_merge (e : Excerpt) (es : List Excerpt) :
    es.foldlM merge e =
      match firstMismatch? (e.file.toList ++ names es) with
      | none => .ok (es.foldl add e)
      | some mismatch => .error mismatch := by
  induction es generalizing e with
  | nil => cases hfile : e.file <;> rfl
  | cons other es ih =>
      rw [List.foldlM_cons, List.foldl_cons]
      rcases merge_cases e other with ⟨hother, hmerge⟩ |
        ⟨name, merged, hother, hfile, hmerge, hmerged⟩ | ⟨left, right, hfile, hother, hne, hmerge⟩
      · rw [hmerge, add_of_merge_eq_ok hmerge, names_cons_of_none hother]
        exact ih e
      · have hfirst : firstMismatch? (e.file.toList ++ name :: names es) =
            firstMismatch? (merged.file.toList ++ names es) := by
          rw [hmerged]
          rcases hfile with hfile | hfile
          · rw [hfile]
            rfl
          · simp [hfile, firstMismatch?]
        rw [hmerge, add_of_merge_eq_ok hmerge, names_cons_of_some hother, hfirst]
        exact ih merged
      · have hfirst : firstMismatch? (left :: right :: names es) = some ⟨left, right⟩ := by
          simp [firstMismatch?, hne.symm]
        rw [hmerge, hfile, names_cons_of_some hother]
        simp only [Option.toList_some, List.singleton_append, hfirst]
        rfl

/-- To add excerpts is to add those that are detached or of the first file. -/
theorem foldl_add_eq_filter (e : Excerpt) (es : List Excerpt) :
    es.foldl add e =
      (es.filter fun other =>
        other.file = none ∨ other.file = (e.file.toList ++ names es).head?).foldl add e := by
  induction es generalizing e with
  | nil => rfl
  | cons other es ih =>
      rw [List.foldl_cons, List.filter_cons]
      rcases merge_cases e other with ⟨hother, hmerge⟩ |
        ⟨name, merged, hother, hfile, hmerge, hmerged⟩ | ⟨left, right, hfile, hother, hne, hmerge⟩
      · rw [names_cons_of_none hother, if_pos (by simp [hother]), List.foldl_cons,
          add_of_merge_eq_ok hmerge]
        exact ih e
      · have hfirst : (e.file.toList ++ name :: names es).head? = merged.file := by
          rcases hfile with hfile | hfile <;> simp [hfile, hmerged]
        have hmore := ih merged
        rw [hmerged, Option.toList_some, List.singleton_append, List.head?_cons, ← hmerged] at hmore
        rw [names_cons_of_some hother, hfirst, if_pos (by simp [hother, hmerged]), List.foldl_cons,
          add_of_merge_eq_ok hmerge]
        exact hmore
      · have hfirst : (e.file.toList ++ names (other :: es)).head? =
            (e.file.toList ++ names es).head? := by
          simp [hfile]
        have hfile' : (e.file.toList ++ names es).head? = some left := by simp [hfile]
        rw [add_of_merge_eq_error hmerge, hfirst, if_neg (by simp [hother, hfile', hne.symm])]
        exact ih e

/-- Excerpts are joined to their union, unless they name different files. -/
theorem join_eq (es : List Excerpt) :
    join es =
      match firstMismatch? (names es) with
      | none => .ok (union es)
      | some mismatch => .error mismatch :=
  foldlM_merge detached es

theorem join_eq_error_iff {mismatch : FileMismatch} :
    join es = .error mismatch ↔ firstMismatch? (names es) = some mismatch := by
  rw [join_eq]
  cases firstMismatch? (names es) <;> simp

theorem join_eq_ok_iff {joined : Excerpt} :
    join es = .ok joined ↔ firstMismatch? (names es) = none ∧ union es = joined := by
  rw [join_eq]
  cases firstMismatch? (names es) <;> simp

/-- What is left when excerpts of other files than the first are taken out is joined without
failing. -/
theorem join_filter (es : List Excerpt) :
    join (es.filter fun e => e.file = none ∨ e.file = (names es).head?) = .ok (union es) := by
  have hunion := foldl_add_eq_filter detached es
  refine join_eq_ok_iff.2 ⟨firstMismatch?_eq_none_iff.2 ?_, hunion.symm⟩
  have hfirst : ∀ name ∈ names (es.filter fun e => e.file = none ∨ e.file = (names es).head?),
      some name = (names es).head? := by
    intro name hname
    obtain ⟨e, he, hfile⟩ := mem_names.1 hname
    simpa [hfile] using (List.mem_filter.1 he).2
  exact fun m hm n hn => Option.some_inj.1 ((hfirst m hm).trans (hfirst n hn).symm)

/-- Excerpts cannot be joined if two of them name different files. -/
theorem exists_join_eq_error_iff :
    (∃ mismatch, join es = .error mismatch) ↔
      ∃ e ∈ es, ∃ f ∈ es, e.file ≠ none ∧ f.file ≠ none ∧ e.file ≠ f.file := by
  have hsome : (∃ mismatch, join es = .error mismatch) ↔ firstMismatch? (names es) ≠ none := by
    simp only [join_eq_error_iff, Option.ne_none_iff_exists']
  rw [hsome, ne_eq, firstMismatch?_eq_none_iff]
  constructor
  · intro h
    simp only [Classical.not_forall] at h
    obtain ⟨m, hm, n, hn, hne⟩ := h
    obtain ⟨e, he, hfile⟩ := mem_names.1 hm
    obtain ⟨f, hf, hfile'⟩ := mem_names.1 hn
    exact ⟨e, he, f, hf, by simp [hfile], by simp [hfile'], by simpa [hfile, hfile'] using hne⟩
  · rintro ⟨e, he, f, hf, hfile, hfile', hne⟩ h
    obtain ⟨m, hm⟩ := Option.ne_none_iff_exists'.1 hfile
    obtain ⟨n, hn⟩ := Option.ne_none_iff_exists'.1 hfile'
    have heq := h m (mem_names.2 ⟨e, he, hm⟩) n (mem_names.2 ⟨f, hf, hn⟩)
    exact hne (by rw [hm, hn, heq])

/-- An excerpt with which merging fails is left as it is.  Excerpts cannot be joined if two of them
name different files; the error names the first file and the first other one.  If they can, the
join is the union; and a union of any excerpts is the join of those that are detached or name the
first file. -/
theorem join_mismatch (a b : Excerpt) (es : List Excerpt) :
    ((mergeInPlace b).run a =
      match a.merge b with
      | .ok merged => .ok () merged
      | .error mismatch => .error mismatch a) ∧
    ((∃ mismatch, join es = .error mismatch) ↔
      ∃ e ∈ es, ∃ f ∈ es, e.file ≠ none ∧ f.file ≠ none ∧ e.file ≠ f.file) ∧
    (∀ mismatch, join es = .error mismatch →
      (names es).head? = some mismatch.left ∧
        (names es).find? (· != mismatch.left) = some mismatch.right) ∧
    (∀ joined, join es = .ok joined → joined = union es) ∧
    join (es.filter fun e => e.file = none ∨ e.file = (names es).head?) = .ok (union es) := by
  refine ⟨run_mergeInPlace a b, exists_join_eq_error_iff, fun mismatch h => ?_, fun joined h => ?_,
    join_filter es⟩
  · exact firstMismatch?_eq_some_iff.1 (join_eq_error_iff.1 h)
  · exact (join_eq_ok_iff.1 h).2.symm

/-- Detached excerpts are joined with any other, and a second file is named rather than a third
one. -/
theorem join_mismatch_threeFiles :
    let es := [detached, ofFile "a", detached, ofFile "a", ofFile "b", ofFile "c"]
    (mergeInPlace (ofFile "b")).run (ofFile "a") = .error ⟨"a", "b"⟩ (ofFile "a") ∧
      join es = .error ⟨"a", "b"⟩ ∧
      (names es).head? = some "a" ∧ (names es).find? (· != "a") = some "b" ∧
      join [detached, ofFile "a", detached, ofFile "a"] = .ok (union es) := by
  intro es
  obtain ⟨hmerge, hfails, hfiles, -, hunion⟩ := join_mismatch (ofFile "a") (ofFile "b") es
  obtain ⟨mismatch, hjoin⟩ := hfails.2
    ⟨ofFile "a", by decide, ofFile "b", by decide, by decide, by decide, by decide⟩
  obtain ⟨left, right⟩ := mismatch
  obtain ⟨hleft, hright⟩ := hfiles _ hjoin
  obtain rfl : "a" = left := Option.some_inj.1 hleft
  obtain rfl : "b" = right := Option.some_inj.1 hright
  exact ⟨hmerge, hjoin, hleft, hright, hunion⟩

end Excerpt
end Kiln
