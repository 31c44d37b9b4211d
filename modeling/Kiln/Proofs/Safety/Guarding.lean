import Kiln.Proofs.Safety.Pieces
import Kiln.Proofs.Safety.Reports

/-!
# Guarded reading of files

A file is read with guarded accesses up to its document, and the document is checked.  Every
text is read like this to the end, with the outcome of the running definitions, and whatever is
found wrong is reported at lines and columns of the file.
-/

namespace Kiln
namespace Guarded

variable {file : File}

/-! ## Items -/

/-- The item at a position. -/
def itemAt (registry : Registry) (file : File) (p : Position) : Guarded (Found Item) := do
  if (← current file p) = some '#' then
    let found ← directiveAt registry file p
    return found.map .directive
  else
    let found ← tokenAt file p
    return found.map .token

/-- The items of a file from a position on. -/
def itemsFrom (registry : Registry) (file : File) (p : Position) :
    Guarded (Except Diagnostic (List Item)) := do
  let q ← skipTrivia file p
  if ← atEnd file q then return .ok []
  else
    let found ← itemAt registry file q
    match found.outcome with
    | .error d => return .error d
    | .ok item =>
      if _h : file.left found.stop < file.left p then
        let items ← itemsFrom registry file found.stop
        return items.map (item :: ·)
      else .error (.standstill p)
termination_by file.left p

theorem itemAt_eq (hfile : file.Numbered) (registry : Registry) {c : Cursor file}
    (hc : file.Holds c.position) :
    itemAt registry file c.position = .ok (file.itemAt registry c) := by
  rw [itemAt, current_eq hc, ok_bind, File.itemAt, c.rest_eq, File.head?_rest]
  by_cases hhash : file.charAt c.position = some '#'
  · have hline := File.atLineEnd_eq_false_iff.2 ⟨'#', hhash⟩
    rw [if_pos hhash, if_pos hhash, directiveAt_eq hfile registry hc hline]
    rfl
  · have hcursor : file.cursor c.position = c := Cursor.ext rfl
    rw [if_neg hhash, if_neg hhash, tokenAt_eq hc, hcursor]
    rfl

/-- From every position of a file the items are read to its end. -/
theorem itemsFrom_eq (hfile : file.Numbered) (registry : Registry) (c : Cursor file)
    (hc : file.Holds c.position) :
    itemsFrom registry file c.position =
      .ok (file.readAllFrom (file.itemAt registry) (file.itemAt_advances registry) c) := by
  induction hleft : file.left c.position using Nat.strongRecOn generalizing c with
  | ind n ih =>
      subst hleft
      have hskip := hc.skipTrivia
      rw [itemsFrom, skipTrivia_eq c hc, ok_bind, atEnd_eq hskip, ok_bind, ← Cursor.atEnd_eq]
      by_cases hend : c.skipTrivia.atEnd = true
      · rw [if_pos hend, File.readAllFrom_of_atEnd hend]
        rfl
      · rw [if_neg hend, itemAt_eq hfile registry hskip, ok_bind,
          File.readAllFrom_of_not_atEnd (Bool.eq_false_iff.2 hend)]
        cases hfound : (file.itemAt registry c.skipTrivia).outcome with
        | error d => rfl
        | ok item =>
            have hlt := File.left_lt_of_forward (Bool.eq_false_iff.2 hend) fun hline =>
              file.itemAt_advances registry c.skipTrivia item hline hfound
            have hstop := ((File.within_itemAt hfile registry hskip).ok item hfound).2
            have hrest := ih _ hlt (file.cursor _) hstop rfl
            rw [File.position_cursor] at hrest
            dsimp only
            rw [dif_pos hlt, hrest]
            rfl

/-! ## Documents -/

/-- The end of the file and the lines that lead up to it. -/
def endExcerpt (file : File) : Guarded Excerpt := do
  let p ← endPosition file
  let place ← point file p
  surround file p place File.linesBeforeEnd 0

/-- Reads the document of a file.  The excerpt of its end is taken before the items are looked
at, that of an item at fault when it is reported. -/
def parse (registry : Registry) (file : File) : Guarded (Except Diagnostic Document) := do
  match ← itemsFrom registry file ⟨0, 0⟩ with
  | .error d => return .error d
  | .ok items =>
    let ending ← endExcerpt file
    match Document.ofItems items with
    | .ok d => return .ok d
    | .error fault =>
      match fault.rest with
      | [] => return .error (fault.report ending)
      | item :: _ =>
        let _ ← itemExcerpt item
        return .error (fault.report ending)

/-- The report of a violation, for which the excerpts of the nodes it points at are taken. -/
def reportOf (violation : Violation) : Guarded Diagnostic :=
  match violation with
  | .repeatedArgument .. | .reported .. => .ok violation.report
  | .returnCount _ returns statement => do
    let _ ← Guardable.excerpt statement
    let _ ← returns.toList.mapM Guardable.excerpt
    return violation.report

/-- Reads the document of a file and runs the built-in checks on it. -/
def parseAndCheck (registry : Registry) (file : File) : Guarded (Except Diagnostic Document) := do
  match ← parse registry file with
  | .error d => return .error d
  | .ok d =>
    match Check.firstViolation? Check.defaults d with
    | some violation =>
      let d ← reportOf violation
      return .error d
    | none => return .ok d

theorem endExcerpt_eq (hfile : file.Numbered) : endExcerpt file = .ok file.endExcerpt := by
  have hpos : 0 < file.lineCount := hfile.pos
  have hend := File.holds_endPosition hpos
  have hindex : (file.line file.lastIndex).index = file.lastIndex :=
    hfile.index_eq file.lastIndex (Nat.le_refl _)
  rw [endExcerpt, endPosition_eq hpos, ok_bind, point_eq hend, ok_bind]
  refine surround_eq ?_ (plus_zero _)
  change (file.line file.lastIndex).index ≤ file.lineCount
  rw [hindex]
  exact Nat.le_of_lt (File.lastIndex_lt hpos)

theorem parse_eq (hfile : file.Numbered) (registry : Registry) :
    parse registry file = .ok (file.parse registry) := by
  have hread : itemsFrom registry file ⟨0, 0⟩ = .ok (file.items registry) :=
    itemsFrom_eq hfile registry (file.cursor ⟨0, 0⟩) (File.holds_lineStart hfile.pos)
  have hinside := (File.inside_items hfile registry).1
  rw [parse, hread, ok_bind, File.parse]
  cases hitems : file.items registry with
  | error d => rfl
  | ok items =>
      dsimp only [Except.bind]
      rw [endExcerpt_eq hfile, ok_bind, File.documentOfItems, Document.ofItems]
      cases htake : takeDeclarations items with
      | ok ds => rfl
      | error fault =>
          dsimp only [Except.map, Except.mapError]
          cases hrest : fault.rest with
          | nil => rfl
          | cons item rest =>
              have hmem := mem_of_mem_rest htake item (hrest ▸ List.mem_cons_self)
              dsimp only
              rw [itemExcerpt_eq fun e he => (hinside items hitems item hmem e he).toFits]
              rfl

theorem reportOf_eq {violation : Violation} (h : violation.Inside file) :
    reportOf violation = .ok violation.report := by
  cases violation with
  | repeatedArgument function first again => rfl
  | returnCount function returns statement =>
      obtain ⟨hreturns, hstatement⟩ := h
      rw [reportOf, Guardable.excerpt_eq fun e he => (hstatement e he).toFits, ok_bind]
      cases returns with
      | none => rfl
      | some types =>
          rw [Option.toList_some, List.mapM_cons,
            Guardable.excerpt_eq fun e he => (hreturns types rfl e he).toFits]
          rfl
  | reported d => rfl

theorem parseAndCheck_eq (hfile : file.Numbered) (registry : Registry) :
    parseAndCheck registry file = .ok (file.parseAndCheck registry) := by
  rw [parseAndCheck, parse_eq hfile, ok_bind, File.parseAndCheck]
  cases hparse : file.parse registry with
  | error d => rfl
  | ok d =>
      dsimp only [Except.bind]
      cases h : Check.firstViolation? Check.defaults d with
      | none => rfl
      | some violation =>
          dsimp only
          rw [reportOf_eq (Check.inside_firstViolation (File.inside_of_parse hfile hparse) h)]
          rfl

end Guarded

namespace File

/-- Every file is read and checked without a breach, by a run that takes each line and each part
of a line directly, cuts and highlights only what is there and merges only excerpts of one file.
Whatever is found wrong is reported, with all related notes, at places that name the file and
show lines of it in order, with highlights that lie on their lines. -/
theorem parseAndCheck_inBounds (registry : Registry) (name text : String) :
    Guarded.parseAndCheck registry (ofText name text) =
        .ok ((ofText name text).parseAndCheck registry) ∧
      ∀ d, (ofText name text).parseAndCheck registry = .error d →
        ∀ notice ∈ d.chain, notice.excerpt.InRange (ofText name text) := by
  have hfile := numbered_ofText name text
  exact ⟨Guarded.parseAndCheck_eq hfile registry, fun d => inRange_of_parseAndCheck hfile⟩

/-- A function that breaks off is reported at the end of the file, below two lines that lead up
to it. -/
theorem parseAndCheck_inBounds_end :
    ∃ d, (ofText "main.kn" "\n\nfun").parseAndCheck .builtin = .error d ∧
      d.main.excerpt.leading.length = 2 ∧
      d.main.excerpt.InRange (ofText "main.kn" "\n\nfun") := by
  have hleading : (match (ofText "main.kn" "\n\nfun").parseAndCheck .builtin with
      | .error d => some d.main.excerpt.leading.length
      | .ok _ => none) = some 2 := by
    decide +kernel
  obtain ⟨-, hinRange⟩ := parseAndCheck_inBounds .builtin "main.kn" "\n\nfun"
  cases h : (ofText "main.kn" "\n\nfun").parseAndCheck .builtin with
  | error d =>
      rw [h] at hleading
      exact ⟨d, rfl, Option.some_inj.1 hleading, hinRange d h d.main List.mem_cons_self⟩
  | ok d =>
      rw [h] at hleading
      cases hleading

end File
end Kiln
