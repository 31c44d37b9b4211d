import Kiln.Items
import Kiln.Proofs.Coverage.Trivia
import Kiln.Proofs.Lexing.Numbers

/-!
# What goes wrong in scanning

A token that cannot be read is a lexical fault, and a directive that cannot be read a fault of
its own category.  Reading a file fails with such a fault of a piece.  As a code point stands
wherever a piece is read, it never fails for want of input.
-/

namespace Kiln

/-! ## Categories -/

/-- An error of one of some categories. -/
def Diagnostic.IsOf (categories : List Category) (d : Diagnostic) : Prop :=
  ∃ code, d.main.code = some code ∧ code.category ∈ categories

/-- What is found can only fail with an error of one of some categories. -/
def Found.FailsWith {α : Type} (categories : List Category) (found : Found α) : Prop :=
  ∀ d, found.outcome = .error d → d.IsOf categories

theorem Diagnostic.IsOf.code_ne {categories : List Category} {d : Diagnostic} {code : Code}
    (h : d.IsOf categories) (hcode : code.category ∉ categories) : d.main.code ≠ some code := by
  intro heq
  obtain ⟨own, hown, hcategory⟩ := h
  rw [heq] at hown
  cases hown
  exact hcode hcategory

theorem DirectiveFault.category_code (fault : DirectiveFault) :
    fault.code.category = .directive := by
  cases fault <;> rfl

theorem DirectiveFault.code_report (fault : DirectiveFault) (place : Excerpt) :
    (fault.report place).main.code = some fault.code := by
  cases fault <;> rfl

theorem DirectiveFault.code_reportFrom (fault : DirectiveFault) (place origin : Excerpt) :
    (fault.reportFrom place origin).main.code = some fault.code := by
  cases fault <;> rfl

/-! ## Tokens -/

/-- Where a character stands, the faults of reading a token are lexical. -/
theorem category_of_readToken {ch : Char} {cs : List Char} {fault : LexicalFault} {distance : Nat}
    (h : (readToken (ch :: cs)).outcome = .error (fault, distance)) :
    fault.code.category = .lexical := by
  simp only [readToken] at h
  split at h
  · cases h
  · split at h
    · next hdigit =>
        obtain ⟨_, _, -, -, htakes⟩ := @Number.exists_takes (ch :: cs) ⟨ch, rfl, hdigit⟩
        rw [(htakes.error fault distance h).1]
        rfl
    · split at h
      · rw [readString] at h
        split at h <;> cases h
        rfl
      · split at h
        · split at h <;> cases h
          rfl
        · cases h
          rfl

namespace Found.FailsWith

variable {α β : Type} {categories : List Category} {stop : Position} {found : Found α}

theorem of_ok (a : α) : FailsWith categories ⟨.ok a, stop⟩ := fun _ h => by cases h

theorem of_report (fault : DirectiveFault) (place : Excerpt) :
    (⟨.error (fault.report place), stop⟩ : Found α).FailsWith [.directive] := by
  rintro d ⟨⟩
  exact ⟨fault.code, fault.code_report place, List.mem_singleton.2 fault.category_code⟩

theorem of_reportFrom (fault : DirectiveFault) (place origin : Excerpt) :
    (⟨.error (fault.reportFrom place origin), stop⟩ : Found α).FailsWith [.directive] := by
  rintro d ⟨⟩
  exact ⟨fault.code, fault.code_reportFrom place origin, List.mem_singleton.2 fault.category_code⟩

theorem map {more : List Category} (f : α → β) (h : found.FailsWith categories)
    (hmore : categories ⊆ more) : (found.map f).FailsWith more := by
  intro d hd
  obtain ⟨code, hcode, hcategory⟩ := h d (map_eq_error_iff.1 hd)
  exact ⟨code, hcode, hmore hcategory⟩

end Found.FailsWith

namespace File

variable {file : File}

open Found.FailsWith

theorem failsWith_tokenAt {c : Cursor file} (hline : c.atLineEnd = false) :
    (file.tokenAt c).FailsWith [.lexical] := by
  intro d hd
  simp only [tokenAt] at hd
  split at hd
  · cases hd
  · next fault distance hfault =>
      cases hd
      have hne : c.rest ≠ [] := by simpa [Cursor.atLineEnd] using hline
      obtain ⟨ch, cs, hrest⟩ := List.exists_cons_of_ne_nil hne
      rw [hrest] at hfault
      exact ⟨fault.code, (fault.main_report file _ distance).1,
        List.mem_singleton.2 (category_of_readToken hfault)⟩

theorem failsWith_closeInclusion (i : Inclusion) (p : Position) :
    (file.closeInclusion i p).FailsWith [.directive] := by
  simp only [closeInclusion]
  split
  · exact of_ok _
  · exact of_report _ _

theorem failsWith_inclusionAt (head : DirectiveHead) (p : Position) :
    (file.inclusionAt head p).FailsWith [.directive] := by
  simp only [inclusionAt]
  split
  · exact of_report _ _
  · split
    · exact of_report _ _
    · simp only [pathAt]
      split
      · exact of_reportFrom _ _ _
      · split
        · split
          · exact of_report _ _
          · exact failsWith_closeInclusion _ _
        · exact of_reportFrom _ _ _

theorem failsWith_inlineBlockAt (head : DirectiveHead) (p : Position) :
    (file.inlineBlockAt head p).FailsWith [.directive] := by
  simp only [inlineBlockAt]
  split
  · exact of_report _ _
  · split
    · exact of_report _ _
    · simp only [blockAt]
      split
      · exact of_reportFrom _ _ _
      · exact of_ok _

theorem failsWith_directiveOfKindAt (kind : DirectiveKind) (head : DirectiveHead) (p : Position) :
    (file.directiveOfKindAt kind head p).FailsWith [.directive] := by
  cases kind with
  | inclusion => exact failsWith_inclusionAt head p
  | inlineBlock => exact failsWith_inlineBlockAt head p

theorem failsWith_directiveAt (registry : Registry) (p : Position) :
    (file.directiveAt registry p).FailsWith [.directive] := by
  simp only [directiveAt]
  split
  · split
    · exact of_report _ _
    · split
      · exact of_report _ _
      · exact failsWith_directiveOfKindAt _ _ _
  · exact of_report _ _

theorem failsWith_itemAt (registry : Registry) {c : Cursor file} (hline : c.atLineEnd = false) :
    (file.itemAt registry c).FailsWith [.lexical, .directive] := by
  rw [itemAt]
  split
  · exact (failsWith_directiveAt registry c.position).map _ (List.subset_cons_self _ _)
  · exact (failsWith_tokenAt hline).map _ (by simp)

/-! ## Files -/

/-- If every piece that stands at a code point can only fail with some errors, so can reading
all of them. -/
theorem isOf_of_readAllFrom {α : Type} {readAt : Cursor file → Found α}
    {advances : file.Advances readAt} {categories : List Category} {c : Cursor file}
    {d : Diagnostic} (hread : ∀ e, e.atLineEnd = false → (readAt e).FailsWith categories)
    (h : file.readAllFrom readAt advances c = .error d) : d.IsOf categories := by
  fun_induction readAllFrom file readAt advances c with
  | case1 c hend => cases h
  | case2 c hend d' hd =>
      cases h
      rw [Bool.not_eq_true] at hend
      obtain ⟨ch, hch, -⟩ := Cursor.skipTrivia_stops hend
      refine hread c.skipTrivia ?_ d hd
      rw [Cursor.atLineEnd_eq]
      exact atLineEnd_eq_false_iff.2 ⟨ch, hch⟩
  | case3 c hend a ha ih => exact ih (map_eq_error_iff.1 h)

/-- Reading the tokens of a file fails with a lexical fault. -/
theorem isOf_of_tokens_eq_error {d : Diagnostic} (h : file.tokens = .error d) :
    d.IsOf [.lexical] :=
  isOf_of_readAllFrom (fun _ => failsWith_tokenAt) h

/-- Reading the items of a file fails with a lexical fault or one in a directive. -/
theorem isOf_of_items_eq_error {registry : Registry} {d : Diagnostic}
    (h : file.items registry = .error d) : d.IsOf [.lexical, .directive] :=
  isOf_of_readAllFrom (fun _ => failsWith_itemAt registry) h

end File
end Kiln
