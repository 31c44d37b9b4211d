import Kiln.Grammar.Document
import Kiln.Proofs.Grammar.Functions

/-!
# Reading documents

Documents are read exactly from the items they are written with.  As reading gives
one result at most, no list of items belongs to two grammatical documents.
-/

namespace Kiln

/-! ## Declarations one after another -/

@[simp] theorem takeDeclarations_nil : takeDeclarations [] = .ok [] := by
  rw [takeDeclarations]

@[simp] theorem takeDeclarations_directive (d : Directive) (rest : List Item) :
    takeDeclarations (.directive d :: rest) = (takeDeclarations rest).map (.directive d :: ·) := by
  rw [takeDeclarations]

/-- A token other than the keyword begins no declaration. -/
theorem takeDeclarations_foreign {t : Token} (ht : t.isKeyword .function = false)
    (rest : List Item) :
    takeDeclarations (.token t :: rest) = .error ⟨.declaration, .token t :: rest⟩ := by
  rw [takeDeclarations, if_neg (by simp [ht])]

theorem takeDeclarations_error {t : Token} {rest : List Item} {fault : SyntaxFault}
    (ht : t.isKeyword .function = true)
    (h : takeFunction (.token t :: rest) = .error fault) :
    takeDeclarations (.token t :: rest) = .error fault := by
  rw [takeDeclarations, if_pos ht]
  split
  · next h' =>
      rw [h] at h'
      cases h'
      rfl
  · next h' =>
      rw [h] at h'
      cases h'

theorem takeDeclarations_function {t : Token} {rest after : List Item} {f : FunctionDecl}
    (ht : t.isKeyword .function = true)
    (h : takeFunction (.token t :: rest) = .ok (f, after)) :
    takeDeclarations (.token t :: rest) = (takeDeclarations after).map (.function f :: ·) := by
  rw [takeDeclarations, if_pos ht]
  split
  · next h' =>
      rw [h] at h'
      cases h'
  · next h' =>
      rw [h] at h'
      cases h'
      rfl

/-- Induction along declarations: the items are over, a directive comes first, or a
token that begins no function, or a function that fails or is read. -/
theorem takeDeclarations_induct {motive : List Item → Prop} (nil : motive [])
    (directive : ∀ d rest, motive rest → motive (.directive d :: rest))
    (foreign : ∀ t rest, t.isKeyword .function = false → motive (.token t :: rest))
    (failed : ∀ t rest fault, t.isKeyword .function = true →
      takeFunction (.token t :: rest) = .error fault → motive (.token t :: rest))
    (function : ∀ t rest f after, t.isKeyword .function = true →
      takeFunction (.token t :: rest) = .ok (f, after) → motive after →
      motive (.token t :: rest))
    (items : List Item) : motive items := by
  induction hlen : items.length using Nat.strongRecOn generalizing items with
  | ind n ih =>
      cases items with
      | nil => exact nil
      | cons item rest =>
          cases item with
          | directive d =>
              have hlt : rest.length < n := hlen ▸ Nat.lt_succ_self _
              exact directive d rest (ih _ hlt rest rfl)
          | token t =>
              cases ht : t.isKeyword .function with
              | false => exact foreign t rest ht
              | true =>
                  cases hf : takeFunction (.token t :: rest) with
                  | error fault => exact failed t rest fault ht hf
                  | ok r =>
                      have hlt := consumes_takeFunction.length_lt hf
                      exact function t rest r.1 r.2 ht hf (ih _ (hlen ▸ hlt) r.2 rfl)

theorem items_function (f : FunctionDecl) :
    Phrase.function.items f = (Declaration.function f).items :=
  f.itemsOf_marked

/-- The items of a grammatical function begin with its keyword. -/
theorem FunctionDecl.Grammatical.items_eq_cons {f : FunctionDecl} (hf : f.Grammatical) :
    ∃ rest, Phrase.function.items f = .token f.keyword :: rest ∧
      f.keyword.isKeyword .function = true :=
  ⟨_, rfl, hf.keyword⟩

/-- A grammatical declaration is read off in front of anything. -/
theorem takeDeclarations_items_append {d : Declaration} (hd : d.Grammatical)
    (rest : List Item) :
    takeDeclarations (d.items ++ rest) = (takeDeclarations rest).map (d :: ·) := by
  cases d with
  | directive d => exact takeDeclarations_directive d rest
  | function f =>
      have hfits : f.Grammatical := hd
      obtain ⟨more, hmore, hkeyword⟩ := hfits.items_eq_cons
      have hf : takeFunction (Phrase.function.items f ++ rest) = .ok (f, rest) :=
        (Phrase.readBy_takeFunction.accepted _ _ _).2 ⟨hfits, trivial, rfl⟩
      rw [hmore, List.cons_append] at hf
      rw [← items_function, hmore, List.cons_append]
      exact takeDeclarations_function hkeyword hf

theorem takeDeclarations_flatMap_append {ds : List Declaration}
    (hds : ∀ d ∈ ds, d.Grammatical) (rest : List Item) :
    takeDeclarations (ds.flatMap Declaration.items ++ rest) =
      (takeDeclarations rest).map (ds ++ ·) := by
  induction ds with
  | nil => cases h : takeDeclarations rest <;> simp [Except.map, h]
  | cons d ds ih =>
      rw [List.forall_mem_cons] at hds
      rw [List.flatMap_cons, List.append_assoc, takeDeclarations_items_append hds.1, ih hds.2]
      cases takeDeclarations rest <;> rfl

/-- Declarations are read exactly from the items of grammatical ones. -/
theorem takeDeclarations_eq_ok_iff {items : List Item} {ds : List Declaration} :
    takeDeclarations items = .ok ds ↔
      (∀ d ∈ ds, d.Grammatical) ∧ ds.flatMap Declaration.items = items := by
  constructor
  · intro h
    induction items using takeDeclarations_induct generalizing ds with
    | nil =>
        rw [takeDeclarations_nil] at h
        cases h
        exact ⟨by simp, rfl⟩
    | directive d rest ih =>
        rw [takeDeclarations_directive, map_eq_ok_iff] at h
        obtain ⟨more, hmore, rfl⟩ := h
        obtain ⟨hgrammatical, rfl⟩ := ih hmore
        refine ⟨?_, rfl⟩
        rw [List.forall_mem_cons]
        exact ⟨trivial, hgrammatical⟩
    | foreign t rest ht =>
        rw [takeDeclarations_foreign ht] at h
        cases h
    | failed t rest fault ht hf =>
        rw [takeDeclarations_error ht hf] at h
        cases h
    | function t rest f after ht hf ih =>
        rw [takeDeclarations_function ht hf, map_eq_ok_iff] at h
        obtain ⟨more, hmore, rfl⟩ := h
        obtain ⟨hgrammatical, rfl⟩ := ih hmore
        obtain ⟨hfits, -, hitems⟩ := (Phrase.readBy_takeFunction.accepted _ _ _).1 hf
        constructor
        · rw [List.forall_mem_cons]
          exact ⟨hfits, hgrammatical⟩
        · rw [List.flatMap_cons, hitems, items_function]
  · rintro ⟨hgrammatical, rfl⟩
    have hread := takeDeclarations_flatMap_append hgrammatical []
    rw [List.append_nil, takeDeclarations_nil] at hread
    rw [hread, Except.map, List.append_nil]

/-- Declarations fail where, behind grammatical ones, a token stands that begins no
function, or one that begins a function which fails. -/
theorem exists_of_takeDeclarations_eq_error {items : List Item} {fault : SyntaxFault}
    (h : takeDeclarations items = .error fault) :
    ∃ (done : List Declaration) (t : Token) (rest : List Item),
      (∀ d ∈ done, d.Grammatical) ∧
      items = done.flatMap Declaration.items ++ .token t :: rest ∧
      ((t.isKeyword .function = false ∧ fault = ⟨.declaration, .token t :: rest⟩) ∨
        (t.isKeyword .function = true ∧ takeFunction (.token t :: rest) = .error fault)) := by
  induction items using takeDeclarations_induct with
  | nil =>
      rw [takeDeclarations_nil] at h
      cases h
  | directive d rest ih =>
      rw [takeDeclarations_directive, map_eq_error_iff] at h
      obtain ⟨done, t, rest', hdone, rfl, hcases⟩ := ih h
      refine ⟨.directive d :: done, t, rest', ?_, rfl, hcases⟩
      rw [List.forall_mem_cons]
      exact ⟨trivial, hdone⟩
  | foreign t rest ht =>
      rw [takeDeclarations_foreign ht] at h
      cases h
      exact ⟨[], t, rest, by simp, rfl, Or.inl ⟨ht, rfl⟩⟩
  | failed t rest fault' ht hf =>
      rw [takeDeclarations_error ht hf] at h
      cases h
      exact ⟨[], t, rest, by simp, rfl, Or.inr ⟨ht, hf⟩⟩
  | function t rest f after ht hf ih =>
      rw [takeDeclarations_function ht hf, map_eq_error_iff] at h
      obtain ⟨done, t', rest', hdone, rfl, hcases⟩ := ih h
      obtain ⟨hfits, -, hitems⟩ := (Phrase.readBy_takeFunction.accepted _ _ _).1 hf
      refine ⟨.function f :: done, t', rest', ?_, ?_, hcases⟩
      · rw [List.forall_mem_cons]
        exact ⟨hfits, hdone⟩
      · rw [hitems, items_function, List.flatMap_cons, List.append_assoc]

/-! ## Whole documents -/

theorem Document.ofItems_eq_ok_iff {items : List Item} {d : Document} :
    Document.ofItems items = .ok d ↔ d.Grammatical ∧ d.items = items := by
  rw [ofItems, map_eq_ok_iff]
  constructor
  · rintro ⟨ds, hds, rfl⟩
    exact takeDeclarations_eq_ok_iff.1 hds
  · intro h
    exact ⟨d.declarations, takeDeclarations_eq_ok_iff.2 h, rfl⟩

/-- Grammatical documents that are written with the same items are the same. -/
theorem Document.Grammatical.eq_of_items_eq {d d' : Document} (hd : d.Grammatical)
    (hd' : d'.Grammatical) (h : d.items = d'.items) : d = d' := by
  have hread : Document.ofItems d'.items = .ok d := ofItems_eq_ok_iff.2 ⟨hd, h⟩
  have hread' : Document.ofItems d'.items = .ok d' := ofItems_eq_ok_iff.2 ⟨hd', rfl⟩
  exact Except.ok.inj (hread.symm.trans hread')

theorem File.documentOfItems_eq_ok_iff {file : File} {items : List Item} {d : Document} :
    file.documentOfItems items = .ok d ↔ Document.ofItems items = .ok d := by
  rw [documentOfItems]
  cases Document.ofItems items with
  | error fault =>
      constructor
      · intro h
        cases h
      · intro h
        cases h
  | ok d' =>
      constructor
      · intro h
        cases h
        rfl
      · intro h
        cases h
        rfl

/-- The items of a file are read as a document exactly if the document is
grammatical and written with these items, and grammatical documents are told apart by
the items they are written with. -/
theorem File.documentOfItems_exact (file : File) :
    (∀ (items : List Item) (d : Document),
      file.documentOfItems items = .ok d ↔ d.Grammatical ∧ d.items = items) ∧
    Function.Injective fun d : { d : Document // d.Grammatical } => d.val.items := by
  constructor
  · intro items d
    rw [documentOfItems_eq_ok_iff, Document.ofItems_eq_ok_iff]
  · intro d d' h
    exact Subtype.ext (d.property.eq_of_items_eq d'.property h)

end Kiln
