import Kiln.Items
import Kiln.Proofs.Coverage.Tokens

/-!
# Parts of directives

What a directive is made of, and where its parts stand, when reading it succeeds.
-/

namespace Kiln

/-! ## Parts of a directive -/

theorem PathQuote.eq_of_ofOpener? {c : Char} {quote : PathQuote}
    (h : PathQuote.ofOpener? c = some quote) : c = quote.opener := by
  unfold PathQuote.ofOpener? at h
  split at h
  · next hc =>
      cases h
      exact hc
  · split at h
    · next hc =>
        cases h
        exact hc
    · cases h

namespace File

variable {file : File}

theorem textBehind?_eq_none_iff {p : Position} :
    file.textBehind? p = none ↔
      file.atLineEnd p = true ∨ file.startsWith p commentMark = true := by
  rw [textBehind?]
  split
  · next h => simpa using h
  · next h => simpa using h

theorem closeInclusion_eq_ok {i : Inclusion} {p : Position} {d : Directive}
    (h : (file.closeInclusion i p).outcome = .ok d) :
    d = .inclusion i ∧ (file.closeInclusion i p).stop = file.skipBlanksInLine p ∧
      file.textBehind? (file.skipBlanksInLine p) = none := by
  unfold closeInclusion at h ⊢
  dsimp only at h ⊢
  split at h
  · next hnone =>
      cases h
      simp [hnone]
  · cases h

/-- A path of `count` code points behind a name that ends at `p`: its opening quote
stands at `start`, its closing one at `stop`, and behind blanks nothing but a comment
follows at `rest`. -/
structure PathBehind (file : File) (p : Position) (quote : PathQuote) (count : Nat)
    (start stop rest : Position) : Prop where
  start_eq : start = file.skipBlanksInLine p
  opener : file.charAt start = some quote.opener
  count_pos : 0 < count
  stop_eq : stop = (start.right 1).right count
  closer : file.charAt stop = some quote.closer
  rest_eq : rest = file.skipBlanksInLine (stop.right 1)
  behind : file.textBehind? rest = none

/-- The inclusion of the path between two quotes. -/
def inclusionOf (file : File) (head : DirectiveHead) (quote : PathQuote) (count : Nat)
    (start stop : Position) : Inclusion :=
  ⟨head, quote, ⟨quote.openerKind, file.textAt start 1, file.stretch start 1⟩,
    ⟨.string, file.textAt (start.right 1) count, file.stretch (start.right 1) count⟩,
    ⟨quote.closerKind, file.textAt stop 1, file.stretch stop 1⟩⟩

theorem inclusionAt_eq_ok {head : DirectiveHead} {p : Position} {d : Directive}
    (h : (file.inclusionAt head p).outcome = .ok d) :
    ∃ quote count start stop, file.PathBehind p quote count start stop
        (file.inclusionAt head p).stop ∧
      d = .inclusion (file.inclusionOf head quote count start stop) := by
  unfold inclusionAt at h ⊢
  dsimp only at h ⊢
  split at h
  · cases h
  · next c hc =>
      split at h
      · cases h
      · next quote hquote =>
          unfold pathAt at h ⊢
          dsimp only at h ⊢
          split at h
          · cases h
          · next c' hc' =>
              split at h
              · next hcloser =>
                  split at h
                  · cases h
                  · next hcount =>
                      obtain ⟨hd, hstop, hbehind⟩ := closeInclusion_eq_ok h
                      simp only [hcloser, if_true, hcount, if_false, hstop]
                      refine ⟨quote, _, _, _, ⟨rfl, ?_, Nat.pos_of_ne_zero hcount, rfl, ?_, rfl,
                        hbehind⟩, hd⟩
                      · rw [hc, PathQuote.eq_of_ofOpener? hquote]
                      · rw [hc', hcloser]
              · cases h

/-- A tag of `count` code points at `start`, behind a name that ends at `p`: behind
blanks nothing but a comment follows at `rest`, and the line `closer` closes the block. -/
structure TagBehind (file : File) (p : Position) (count : Nat) (start rest : Position)
    (closer : Nat) : Prop where
  start_eq : start = file.skipBlanksInLine p
  count_eq : count = ((file.rest start).takeWhile isWordPart).length
  count_pos : 0 < count
  rest_eq : rest = file.skipBlanksInLine (start.right count)
  behind : file.textBehind? rest = none
  closes : file.blockEnd? p.line (file.textAt start count).toList = some closer

/-- The block of the lines between a tag on a line and a closing line. -/
def inlineBlockOf (file : File) (head : DirectiveHead) (line count : Nat) (start : Position)
    (closer : Nat) : InlineBlock :=
  ⟨head, ⟨.identifier, file.textAt start count, file.stretch start count⟩,
    file.blockBody? (file.lines.extract (line + 1) closer).toList, file.trimmedLine closer⟩

theorem inlineBlockAt_eq_ok {head : DirectiveHead} {p : Position} {d : Directive}
    (h : (file.inlineBlockAt head p).outcome = .ok d) :
    ∃ count start rest closer, file.TagBehind p count start rest closer ∧
      (file.inlineBlockAt head p).stop = file.lineEnd closer ∧
      d = .inlineBlock (file.inlineBlockOf head p.line count start closer) := by
  unfold inlineBlockAt at h ⊢
  dsimp only at h ⊢
  split at h
  · cases h
  · next hcount =>
      split at h
      · cases h
      · next hbehind =>
          simp only [hcount, if_false]
          unfold blockAt at h ⊢
          dsimp only at h ⊢
          split at h
          · cases h
          · next closer hcloser =>
              cases h
              exact ⟨_, _, _, closer, ⟨rfl, rfl, Nat.pos_of_ne_zero hcount, rfl, hbehind, hcloser⟩,
                rfl, rfl⟩

/-- The hash and the name of a directive at `p`, the name being `count` code points
long. -/
def headAt (file : File) (p : Position) (count : Nat) : DirectiveHead :=
  ⟨⟨.punctuation .hash, file.textAt p 1, file.stretch p 1⟩,
    ⟨.identifier, file.textAt (p.right 1) count, file.stretch (p.right 1) count⟩⟩

theorem directiveAt_eq_ok {registry : Registry} {p : Position} {d : Directive}
    (h : (file.directiveAt registry p).outcome = .ok d) :
    file.onlyBlanksBefore p = true ∧ ∃ count kind,
      0 < count ∧ count ≤ (file.rest (p.right 1)).length ∧
      (file.directiveOfKindAt kind (file.headAt p count) ((p.right 1).right count)).outcome =
        .ok d ∧
      (file.directiveAt registry p).stop =
        (file.directiveOfKindAt kind (file.headAt p count) ((p.right 1).right count)).stop := by
  unfold directiveAt at h ⊢
  dsimp only at h ⊢
  split at h
  · next hblanks =>
      split at h
      · cases h
      · next hcount =>
          split at h
          · cases h
          · next kind hkind =>
              refine ⟨hblanks, _, kind, Nat.pos_of_ne_zero hcount, length_takeWhile_le _ _, h, ?_⟩
              simp only [hblanks, if_true, hcount, if_false]
              rfl
  · cases h

end File
end Kiln
