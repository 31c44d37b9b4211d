import Kiln.Proofs.Grammar.FirstFault
import Kiln.Proofs.Safety.Readings

/-!
# Reports inside a file

Reading the document of a file and checking it gives a document whose leaves are inside the
file, or a report of places in the file.  But for the end of the file, which is shown with the
lines above it, these places are leaves of what was read or unions of them.
-/

namespace Kiln

variable {file : File}

/-- Reads the document of a file and runs the built-in checks on it. -/
def File.parseAndCheck (registry : Registry) (file : File) : Except Diagnostic Document :=
  (file.parse registry).bind fun d =>
    match Check.firstViolation? Check.defaults d with
    | some violation => .error violation.report
    | none => .ok d

/-! ## Syntax faults -/

theorem Item.inside_excerpt {item : Item} (h : ∀ e ∈ item.leaves, e.Inside file) :
    item.excerpt.Inside file := by
  cases item with
  | token t => exact h t.excerpt (List.mem_singleton_self _)
  | directive d => exact Leafy.inside_excerpt (Anchored.leaves_ne_nil d) h

/-- The items that are left at a fault are items of the document. -/
theorem mem_of_mem_rest {items : List Item} {fault : SyntaxFault}
    (h : takeDeclarations items = .error fault) : ∀ item ∈ fault.rest, item ∈ items := by
  obtain ⟨done, before, hstuck⟩ := takeDeclarations_stuck h
  intro item hitem
  rw [hstuck.items_eq]
  exact List.mem_append_right _ hitem

theorem File.inRange_endExcerpt (hfile : file.Numbered) : file.endExcerpt.InRange file :=
  (inside_pointAt hfile (holds_endPosition hfile.pos)).inRange_surround hfile _ _ _

/-- A syntax fault is reported at an item or at the end of the file. -/
theorem File.inRange_of_documentOfItems (hfile : file.Numbered) {items : List Item}
    (hitems : ∀ item ∈ items, ∀ e ∈ item.leaves, e.Inside file) {d : Diagnostic}
    (h : file.documentOfItems items = .error d) : d.Everywhere (Excerpt.InRange file) := by
  rw [documentOfItems, Document.ofItems] at h
  cases hread : takeDeclarations items with
  | ok ds =>
      rw [hread] at h
      cases h
  | error fault =>
      rw [hread] at h
      cases h
      refine fault.everywhere_report ?_
      rw [SyntaxFault.place]
      split
      · exact inRange_endExcerpt hfile
      · next item rest hrest =>
          have hmem := mem_of_mem_rest hread item (hrest ▸ List.mem_cons_self)
          exact (Item.inside_excerpt (hitems item hmem)).inRange

/-! ## Violations -/

/-- The leaves of a function are those of its parts. -/
theorem FunctionDecl.forall_leaves {f : FunctionDecl} {P : Excerpt → Prop}
    (h : ∀ e ∈ leaves f, P e) :
    (∀ a ∈ f.arguments, ∀ e ∈ leaves a, P e) ∧ (∀ r ∈ f.returns, ∀ e ∈ leaves r, P e) ∧
      ∀ s ∈ f.statements, ∀ e ∈ leaves s, P e := by
  obtain ⟨h, -⟩ := List.forall_mem_append.1 h
  obtain ⟨h, hstatements⟩ := List.forall_mem_append.1 h
  obtain ⟨h, -⟩ := List.forall_mem_append.1 h
  obtain ⟨h, hreturns⟩ := List.forall_mem_append.1 h
  obtain ⟨h, -⟩ := List.forall_mem_append.1 h
  obtain ⟨-, harguments⟩ := List.forall_mem_append.1 h
  refine ⟨List.forall_mem_flatMap.1 harguments, fun r hr => ?_,
    List.forall_mem_flatMap.1 hstatements⟩
  exact List.forall_mem_flatMap.1 hreturns r (Option.mem_toList.2 hr)

theorem Document.forall_leaves {d : Document} {P : Excerpt → Prop} (h : ∀ e ∈ leaves d, P e)
    {f : FunctionDecl} (hf : f ∈ d.functions) : ∀ e ∈ leaves f, P e := by
  obtain ⟨declaration, hmem, hdeclaration⟩ := List.mem_filterMap.1 hf
  cases declaration with
  | function g =>
      cases hdeclaration
      exact List.forall_mem_flatMap.1 h _ hmem
  | directive _ => cases hdeclaration

/-- Both tokens of a repeated name are names of arguments, unless the first was seen before. -/
theorem mem_of_repeatedName? {seen : List Token} {as : List Argument} {first again : Token}
    (h : repeatedName? seen as = some (first, again)) :
    (first ∈ seen ∨ first ∈ as.map Argument.name) ∧ again ∈ as.map Argument.name := by
  induction as generalizing seen with
  | nil => cases h
  | cons a as ih =>
      rw [List.map_cons]
      rw [repeatedName?] at h
      split at h
      · next found hfound =>
          cases h
          exact ⟨.inl (List.mem_of_find?_eq_some hfound), List.mem_cons_self⟩
      · obtain ⟨hfirst, hagain⟩ := ih h
        refine ⟨?_, List.mem_cons_of_mem _ hagain⟩
        rcases hfirst with hfirst | hfirst
        · rcases List.mem_cons.1 hfirst with rfl | hfirst
          · exact .inr List.mem_cons_self
          · exact .inl hfirst
        · exact .inr (List.mem_cons_of_mem _ hfirst)

/-- A violation at nodes whose leaves are inside a file. -/
def Violation.Inside (file : File) : Violation → Prop
  | .repeatedArgument _ first again => first.excerpt.Inside file ∧ again.excerpt.Inside file
  | .returnCount _ returns statement =>
    (∀ types ∈ returns, ∀ e ∈ leaves types, e.Inside file) ∧
      ∀ e ∈ leaves statement, e.Inside file
  | .reported d => d.Everywhere (Excerpt.Inside file)

theorem Violation.Inside.everywhere_report {violation : Violation} (h : violation.Inside file) :
    violation.report.Everywhere (Excerpt.Inside file) := by
  cases violation with
  | repeatedArgument function first again =>
      obtain ⟨hfirst, hagain⟩ := h
      exact (Diagnostic.Everywhere.error _ _ hagain).withRelated (.plain .note _ hfirst)
  | returnCount function returns statement =>
      obtain ⟨hreturns, hstatement⟩ := h
      have hplace := Leafy.inside_excerpt (Anchored.leaves_ne_nil statement) hstatement
      cases returns with
      | none => exact .error _ _ hplace
      | some types =>
          have htypes := Leafy.inside_excerpt (Anchored.leaves_ne_nil types) (hreturns types rfl)
          exact (Diagnostic.Everywhere.error _ _ hplace).withRelated (.plain .note _ htypes)
  | reported d => exact h

namespace FunctionDecl

variable {f : FunctionDecl} {violation : Violation}

theorem inside_repeatedArgument (hf : ∀ e ∈ leaves f, e.Inside file)
    (h : f.repeatedArgument? = some violation) : violation.Inside file := by
  obtain ⟨⟨first, again⟩, hname, rfl⟩ := Option.map_eq_some_iff.1 h
  obtain ⟨hfirst, hagain⟩ := mem_of_repeatedName? hname
  have hnames : ∀ t ∈ f.arguments.map Argument.name, t.excerpt.Inside file :=
    List.forall_mem_map.2 fun a ha =>
      (forall_leaves hf).1 a ha a.name.excerpt List.mem_cons_self
  exact ⟨hnames first (hfirst.resolve_left List.not_mem_nil), hnames again hagain⟩

theorem inside_wrongReturn (hf : ∀ e ∈ leaves f, e.Inside file)
    (h : f.wrongReturn? = some violation) : violation.Inside file := by
  obtain ⟨statement, hfound, rfl⟩ := Option.map_eq_some_iff.1 h
  obtain ⟨-, hreturns, hstatements⟩ := forall_leaves hf
  exact ⟨hreturns, hstatements statement (List.mem_of_find?_eq_some hfound)⟩

end FunctionDecl

/-- What the built-in checks find wrong with a document is at nodes of it. -/
theorem Check.inside_firstViolation {d : Document} {violation : Violation}
    (hd : ∀ e ∈ leaves d, e.Inside file)
    (h : Check.firstViolation? Check.defaults d = some violation) : violation.Inside file := by
  obtain ⟨check, hcheck, hviolation⟩ := List.exists_of_findSome?_eq_some h
  simp only [Check.defaults, List.mem_cons, List.not_mem_nil, or_false] at hcheck
  rcases hcheck with rfl | rfl
  · obtain ⟨f, hf, hviolation⟩ := List.exists_of_findSome?_eq_some hviolation
    exact FunctionDecl.inside_repeatedArgument (Document.forall_leaves hd hf) hviolation
  · obtain ⟨f, hf, hviolation⟩ := List.exists_of_findSome?_eq_some hviolation
    exact FunctionDecl.inside_wrongReturn (Document.forall_leaves hd hf) hviolation

/-! ## Documents -/

namespace File

variable {registry : Registry}

/-- Every leaf of a document that is read is inside the file. -/
theorem inside_of_parse (hfile : file.Numbered) {d : Document} (h : file.parse registry = .ok d) :
    ∀ e ∈ leaves d, e.Inside file := by
  rw [leaves_document]
  exact List.forall_mem_flatMap.2 ((inside_items hfile registry).1 _ (items_of_parse h).1)

/-- Whatever is found wrong with a file is reported in range. -/
theorem inRange_of_parseAndCheck (hfile : file.Numbered) {d : Diagnostic}
    (h : file.parseAndCheck registry = .error d) : d.Everywhere (Excerpt.InRange file) := by
  obtain ⟨hleaves, hfault⟩ := inside_items hfile registry
  cases hparse : file.parse registry with
  | error fault =>
      rw [parseAndCheck, hparse] at h
      cases h
      rw [parse] at hparse
      cases hitems : file.items registry with
      | error fault =>
          rw [hitems] at hparse
          cases hparse
          exact (hfault d hitems).mono fun e => Excerpt.Inside.inRange
      | ok items =>
          rw [hitems] at hparse
          exact inRange_of_documentOfItems hfile (hleaves items hitems) hparse
  | ok document =>
      rw [parseAndCheck, hparse] at h
      dsimp only [Except.bind] at h
      split at h
      · next violation hviolation =>
          cases h
          have hinside := Check.inside_firstViolation (inside_of_parse hfile hparse) hviolation
          exact hinside.everywhere_report.mono fun e => Excerpt.Inside.inRange
      · cases h

end File
end Kiln
