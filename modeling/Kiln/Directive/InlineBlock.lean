import Kiln.Directive.Fault
import Kiln.Directive.LineEnd
import Kiln.Token.Word
import Kiln.Tree.Node

/-!
# Inline blocks

An inline block holds lines of another language.  It opens with `#inline` and a
tag, and goes on to the first line that consists of the words `#end-inline` and
that tag.  The lines between are kept as they are.
-/

namespace Kiln

/-- The first word of the line that closes a block. -/
def blockCloser : List Char :=
  ['#', 'e', 'n', 'd', '-', 'i', 'n', 'l', 'i', 'n', 'e']

/-- Whether a line closes the blocks with a tag. -/
def Line.closesBlock (line : Line) (tag : List Char) : Bool :=
  words line.chars.toList == [blockCloser, tag]

namespace File

/-- The index of the next line below a line that closes a block. -/
def blockEnd? (file : File) (line : Nat) (tag : List Char) : Option Nat :=
  file.findLine? (fun l => l.closesBlock tag) (line + 1)

/-- The body of a block: its lines joined by line feeds, if there are any. -/
def blockBody? (file : File) (lines : List Line) : Option BlockBody :=
  if lines.isEmpty then none
  else
    some
      { text := "\n".intercalate (lines.map Line.text)
        excerpt := .union (lines.map fun l => .ofHighlight file.name l ⟨0, l.length⟩) }

/-- A line from its first to its last character that is not a blank. -/
def trimmedLine (file : File) (index : Nat) : Excerpt :=
  let chars := (file.line index).chars.toList
  .ofHighlight file.name (file.line index) ⟨(chars.takeWhile isBlank).length, trimmedLength chars⟩

/-- Reads the lines of a block whose opening line is the one of the tag. -/
def blockAt (file : File) (head : DirectiveHead) (tag : Token) (line : Nat) : Found Directive :=
  match file.blockEnd? line tag.text.toList with
  | none =>
    let opener := Excerpt.union [Node.excerpt head, tag.excerpt]
    ⟨.error ((DirectiveFault.unclosedBlock tag.text).reportFrom
      (file.pointAt file.endPosition) opener), file.endPosition⟩
  | some closer =>
    let body := (file.lines.extract (line + 1) closer).toList
    ⟨.ok (.inlineBlock ⟨head, tag, file.blockBody? body, file.trimmedLine closer⟩),
      file.lineEnd closer⟩

/-- Reads the rest of an inline block behind its name. -/
def inlineBlockAt (file : File) (head : DirectiveHead) (p : Position) : Found Directive :=
  let start := file.skipBlanksInLine p
  let count := ((file.rest start).takeWhile isWordPart).length
  if count = 0 then ⟨.error (DirectiveFault.missingTag.report (file.charExcerpt start)), start⟩
  else
    let tag : Token := ⟨.identifier, file.textAt start count, file.stretch start count⟩
    let stop := file.skipBlanksInLine (start.right count)
    match file.textBehind? stop with
    | some behind =>
      let fault := DirectiveFault.textAfter (file.textAt stop behind) "inline"
      ⟨.error (fault.report (file.stretch stop behind)), stop⟩
    | none => file.blockAt head tag p.line

theorem blockEnd?_bounds {file : File} {line closer : Nat} {tag : List Char}
    (h : file.blockEnd? line tag = some closer) : line < closer ∧ closer ≤ file.lastIndex := by
  have hbounds := lt_size_of_findLine? h
  simp only [lastIndex]
  omega

/-- A block ends on a later line than its opening one. -/
theorem stop_blockAt {file : File} {head : DirectiveHead} {tag : Token} {line : Nat}
    {d : Directive} (h : (file.blockAt head tag line).outcome = .ok d) :
    line < (file.blockAt head tag line).stop.line ∧
      (file.blockAt head tag line).stop.line ≤ file.lastIndex := by
  unfold blockAt at h ⊢
  split
  · next hnone => simp [hnone] at h
  · next closer hsome => exact blockEnd?_bounds hsome

theorem stop_inlineBlockAt {file : File} {head : DirectiveHead} {p : Position} {d : Directive}
    (h : (file.inlineBlockAt head p).outcome = .ok d) :
    p.line < (file.inlineBlockAt head p).stop.line ∧
      (file.inlineBlockAt head p).stop.line ≤ file.lastIndex := by
  unfold inlineBlockAt at h ⊢
  dsimp only at h ⊢
  split
  · next hcount => simp [hcount] at h
  · next hcount =>
    simp only [hcount, if_false] at h
    split
    · next hbehind => simp [hbehind] at h
    · next hbehind =>
      simp only [hbehind] at h
      exact stop_blockAt h

end File
end Kiln
