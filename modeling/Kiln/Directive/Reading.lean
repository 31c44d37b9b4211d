import Kiln.Directive.Inclusion
import Kiln.Directive.InlineBlock
import Kiln.Directive.Registry

/-!
# Reading directives

A directive begins with a hash, the first character of its line that is not a
blank, and a name of letters, numerals, underscores and hyphens.  What follows is
read as the kind of directive that the registry gives for the name, and may take
up further lines.
-/

namespace Kiln

/-- Whether a character can stand in the name of a directive. -/
def isDirectiveNamePart (c : Char) : Bool :=
  isWordPart c || c == '-'

namespace File

/-- Reads the rest of a directive behind its name. -/
def directiveOfKindAt (file : File) (kind : DirectiveKind) (head : DirectiveHead)
    (p : Position) : Found Directive :=
  match kind with
  | .inclusion => file.inclusionAt head p
  | .inlineBlock => file.inlineBlockAt head p

/-- The directive at a position that has a hash. -/
def directiveAt (registry : Registry) (file : File) (p : Position) : Found Directive :=
  if file.onlyBlanksBefore p then
    let hash : Token := ⟨.punctuation .hash, file.textAt p 1, file.stretch p 1⟩
    let start := p.right 1
    let count := ((file.rest start).takeWhile isDirectiveNamePart).length
    if count = 0 then
      ⟨.error (DirectiveFault.missingName.report (file.charExcerpt start)), start⟩
    else
      let name : Token := ⟨.identifier, file.textAt start count, file.stretch start count⟩
      let stop := start.right count
      match registry.find? name.text with
      | none =>
        ⟨.error ((DirectiveFault.unknownName name.text registry.names).report name.excerpt), stop⟩
      | some kind => file.directiveOfKindAt kind ⟨hash, name⟩ stop
  else ⟨.error (DirectiveFault.misplaced.report (file.charExcerpt p)), p⟩

theorem forward_directiveOfKindAt {file : File} {kind : DirectiveKind} {head : DirectiveHead}
    {p q : Position} {d : Directive} (hline : p.line = q.line) (hcolumn : q.column < p.column)
    (h : (file.directiveOfKindAt kind head p).outcome = .ok d) :
    file.Forward q (file.directiveOfKindAt kind head p).stop := by
  cases kind with
  | inclusion =>
    have hstop := file.stop_inclusionAt head p
    exact Or.inl ⟨hstop.1.trans hline, Nat.lt_of_lt_of_le hcolumn hstop.2⟩
  | inlineBlock =>
    have hstop := stop_inlineBlockAt h
    exact Or.inr (hline ▸ hstop)

/-- Reading a directive moves forward. -/
theorem directiveAt_forward (registry : Registry) (file : File) {p : Position} {d : Directive}
    (h : (file.directiveAt registry p).outcome = .ok d) :
    file.Forward p (file.directiveAt registry p).stop := by
  unfold directiveAt at h ⊢
  dsimp only at h ⊢
  split at h
  · next hblank =>
    rw [if_pos hblank]
    split at h
    · cases h
    · next hcount =>
      rw [if_neg hcount]
      split at h
      · cases h
      · next kind _ =>
        exact forward_directiveOfKindAt rfl (by simp only [Position.right]; omega) h
  · cases h

end File
end Kiln
