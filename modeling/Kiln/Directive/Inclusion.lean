import Kiln.Directive.Fault
import Kiln.Directive.LineEnd
import Kiln.Tree.Node

/-!
# Inclusions

An inclusion names a file: `#include <path>` or `#include "path"`.  The path is
not empty and contains none of the closing quotes.
-/

namespace Kiln

/-- Whether a character closes a path, be it the right one or not. -/
def closesPath (c : Char) : Bool := c == '>' || c == '"'

namespace File

/-- Ends an inclusion whose closing quote ends at a position. -/
def closeInclusion (file : File) (i : Inclusion) (p : Position) : Found Directive :=
  let stop := file.skipBlanksInLine p
  match file.textBehind? stop with
  | none => ⟨.ok (.inclusion i), stop⟩
  | some count =>
    let fault := DirectiveFault.textAfter (file.textAt stop count) "include"
    ⟨.error (fault.report (file.stretch stop count)), stop⟩

/-- Reads a path whose opening quote stands at a position. -/
def pathAt (file : File) (head : DirectiveHead) (quote : PathQuote) (p : Position) :
    Found Directive :=
  let opener : Token := ⟨quote.openerKind, file.textAt p 1, file.stretch p 1⟩
  let start := p.right 1
  let count := ((file.rest start).takeWhile fun c => !closesPath c).length
  let stop := start.right count
  match file.charAt stop with
  | none =>
    ⟨.error ((DirectiveFault.unclosedPath quote).reportFrom (file.pointAt stop) opener.excerpt),
      stop⟩
  | some c =>
    if c = quote.closer then
      let closer : Token := ⟨quote.closerKind, file.textAt stop 1, file.stretch stop 1⟩
      if count = 0 then
        ⟨.error (DirectiveFault.emptyPath.report (.union [opener.excerpt, closer.excerpt])),
          stop.right 1⟩
      else
        let path : Token := ⟨.string, file.textAt start count, file.stretch start count⟩
        file.closeInclusion ⟨head, quote, opener, path, closer⟩ (stop.right 1)
    else
      ⟨.error ((DirectiveFault.wrongPathCloser c quote).reportFrom (file.charExcerpt stop)
        opener.excerpt), stop⟩

/-- Reads the rest of an inclusion behind its name. -/
def inclusionAt (file : File) (head : DirectiveHead) (p : Position) : Found Directive :=
  let start := file.skipBlanksInLine p
  match file.charAt start with
  | none => ⟨.error (DirectiveFault.missingPath.report (file.pointAt start)), start⟩
  | some c =>
    match PathQuote.ofOpener? c with
    | none => ⟨.error ((DirectiveFault.wrongPathOpener c).report (file.charExcerpt start)), start⟩
    | some quote => file.pathAt head quote start

/-- An inclusion ends on the line on which it began. -/
theorem stop_closeInclusion (file : File) (i : Inclusion) (p : Position) :
    (file.closeInclusion i p).stop.line = p.line ∧
      p.column ≤ (file.closeInclusion i p).stop.column := by
  unfold closeInclusion
  dsimp only
  split <;> exact ⟨rfl, Nat.le_add_right _ _⟩

theorem stop_pathAt (file : File) (head : DirectiveHead) (quote : PathQuote) (p : Position) :
    (file.pathAt head quote p).stop.line = p.line ∧
      p.column ≤ (file.pathAt head quote p).stop.column := by
  have hright : ∀ m n k, p.column ≤ (((p.right m).right n).right k).column := by
    intro m n k
    simp only [Position.right]
    omega
  unfold pathAt
  dsimp only
  split
  · exact ⟨rfl, hright _ _ 0⟩
  · split
    · split
      · exact ⟨rfl, hright _ _ _⟩
      · exact ⟨(file.stop_closeInclusion _ _).1,
          Nat.le_trans (hright _ _ _) (file.stop_closeInclusion _ _).2⟩
    · exact ⟨rfl, hright _ _ 0⟩

theorem stop_inclusionAt (file : File) (head : DirectiveHead) (p : Position) :
    (file.inclusionAt head p).stop.line = p.line ∧
      p.column ≤ (file.inclusionAt head p).stop.column := by
  have hskip : (file.skipBlanksInLine p).line = p.line ∧
      p.column ≤ (file.skipBlanksInLine p).column := ⟨rfl, Nat.le_add_right _ _⟩
  unfold inclusionAt
  dsimp only
  split
  · exact hskip
  · split
    · exact hskip
    · exact ⟨(file.stop_pathAt _ _ _).1.trans hskip.1,
        Nat.le_trans hskip.2 (file.stop_pathAt _ _ _).2⟩

end File
end Kiln
