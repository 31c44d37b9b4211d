import Kiln.Proofs.Directives.InlineBlocks
import Kiln.Proofs.Outlines.Expressions

/-!
# What the outline of a document depends on

The row of an inline block says how many lines its body shows.  These are the lines of its text if
the block was parsed, but a body that comes from no file shows none, whatever its text.  All else
in an outline is the same in documents that are the same up to places.

So an outline is taken apart into the counts of lines and the rest (`Document.outlineWith`): two
outlines of one document are the same exactly if all counts are.
-/

namespace Kiln

/-! ## Counts of lines -/

namespace InlineBlock

variable {b : InlineBlock}

/-- The number of lines that the body shows. -/
def shownLines (b : InlineBlock) : Nat := (b.body.map fun body => body.excerpt.spans.size).getD 0

/-- The number of lines of the text of the body; without a body there is none. -/
def writtenLines (b : InlineBlock) : Nat := b.bodyLines.length

/-- The row of an inline block with a number of lines. -/
def row (b : InlineBlock) (lines : Nat) : String :=
  "inline " ++ b.tag.text ++ " (" ++ toString lines ++ " lines)\n"

theorem outline_eq_row (b : InlineBlock) : b.outline = b.row b.shownLines := rfl

theorem writtenLines_eq_zero_iff : b.writtenLines = 0 ↔ b.body = none := by
  cases hbody : b.body <;> simp [writtenLines, bodyLines, hbody, List.splitOn_ne_nil]

theorem writtenLines_detach (b : InlineBlock) : (Node.detach b).writtenLines = b.writtenLines := by
  cases hbody : b.body <;> simp [writtenLines, bodyLines, Node.detach, hbody]

theorem shownLines_detach (b : InlineBlock) : (Node.detach b).shownLines = 0 := by
  cases hbody : b.body <;> simp [shownLines, Node.detach, hbody, Excerpt.detached]

end InlineBlock

/-! ## Outlines with other counts -/

/-- The inline blocks of a document. -/
def Document.inlineBlocks (d : Document) : List InlineBlock :=
  d.declarations.filterMap fun
    | .directive (.inlineBlock b) => some b
    | _ => none

/-- The rows of a declaration with the lines of a block counted in some way. -/
def Declaration.outlineWith (count : InlineBlock → Nat) : Declaration → String
  | .function f => f.outline
  | .directive (.inclusion i) => i.outline
  | .directive (.inlineBlock b) => b.row (count b)

/-- The outline of a document with the lines of its blocks counted in some way. -/
def Document.outlineWith (count : InlineBlock → Nat) (d : Document) : String :=
  String.join (d.declarations.map (Declaration.outlineWith count))

theorem Document.outline_eq_outlineWith (d : Document) :
    d.outline = d.outlineWith InlineBlock.shownLines := by
  have hrow : Declaration.outline = Declaration.outlineWith InlineBlock.shownLines := by
    funext declaration
    rcases declaration with f | i | b <;> rfl
  rw [outline, outlineWith, hrow]

theorem toDigits_inj {m n : Nat} (h : Nat.toDigits 10 m = Nat.toDigits 10 n) : m = n := by
  have hvalue := congrArg (fun digits => Nat.ofDigitChars 10 digits 0) h
  simpa only [Nat.ofDigitChars_toDigits (by decide : 1 < 10) (by decide)] using hvalue

/-- A row shows its number of lines, and where it ends. -/
theorem InlineBlock.row_append_inj {b : InlineBlock} {m n : Nat} {s t : String}
    (h : b.row m ++ s = b.row n ++ t) : m = n ∧ s = t := by
  have hbehind : Nat.toDigits 10 m ++ (" lines)\n".toList ++ s.toList) =
      Nat.toDigits 10 n ++ (" lines)\n".toList ++ t.toList) := by
    rw [← String.toList_inj] at h
    simpa [row, Nat.toString_eq_ofList_toDigits] using h
  have htake : ∀ (k : Nat) (u : String),
      (Nat.toDigits 10 k ++ (" lines)\n".toList ++ u.toList)).takeWhile Char.isDigit =
        Nat.toDigits 10 k := fun k u =>
    takeWhile_of_head? (fun c => Nat.isDigit_of_mem_toDigits (by decide) (by decide))
      (by rintro c ⟨rfl⟩; decide)
  have hdigits : Nat.toDigits 10 m = Nat.toDigits 10 n := by
    rw [← htake m s, hbehind, htake n t]
  rw [hdigits] at hbehind
  refine ⟨toDigits_inj hdigits, String.toList_inj.1 ?_⟩
  exact List.append_cancel_left (List.append_cancel_left hbehind)

/-- Two ways of counting give one outline if and only if they agree on every block. -/
theorem Document.outlineWith_eq_iff {f g : InlineBlock → Nat} (d : Document) :
    d.outlineWith f = d.outlineWith g ↔ ∀ b ∈ d.inlineBlocks, f b = g b := by
  obtain ⟨ds⟩ := d
  simp only [outlineWith, inlineBlocks]
  induction ds with
  | nil => simp
  | cons declaration ds ih =>
      rw [List.map_cons, List.map_cons, String.join_cons, String.join_cons]
      rcases declaration with f' | i | b
      · rw [List.filterMap_cons_none rfl, ← ih]
        exact String.append_right_inj _
      · rw [List.filterMap_cons_none rfl, ← ih]
        exact String.append_right_inj _
      · show _ ↔ ∀ b' ∈ b :: _, f b' = g b'
        rw [List.forall_mem_cons, ← ih]
        constructor
        · exact InlineBlock.row_append_inj
        · rintro ⟨hcount, hrest⟩
          rw [Declaration.outlineWith, Declaration.outlineWith, hcount, hrest]

/-! ## Places do not matter but to the counts -/

section Detach

variable {count : InlineBlock → Nat} (hcount : ∀ b, count (Node.detach b) = count b)

include hcount

theorem Declaration.outlineWith_detach (d : Declaration) :
    (Node.detach d).outlineWith count = d.outlineWith count := by
  rcases d with f | i | b
  · exact f.outline_detach
  · rfl
  · exact congrArg b.row (hcount b)

theorem Document.outlineWith_detach (d : Document) :
    (Node.detach d).outlineWith count = d.outlineWith count :=
  congrArg String.join (map_detachAll (Declaration.outlineWith_detach hcount) d.declarations)

/-- With counts that do not depend on places an outline does not depend on them either. -/
theorem Document.outlineWith_of_detach_eq {a b : Document} (h : Node.detach a = Node.detach b) :
    a.outlineWith count = b.outlineWith count := by
  rw [← Document.outlineWith_detach hcount a, h, Document.outlineWith_detach hcount]

end Detach

/-! ## Blocks that are parsed -/

namespace File

variable {name text : String} {registry : Registry}

theorem lineFeed_notMem_ofText : ∀ line ∈ (ofText name text).lines, '\n' ∉ line.chars.toList := by
  intro line hline hfeed
  have honeLine := oneLine_of_mem_splitLinesAfter oneLine_nil line (List.mem_toArray.1 hline)
  exact (honeLine _ hfeed).1 rfl

/-- The body of a block shows the lines of its text. -/
theorem shownLines_inlineBlockOf {head : DirectiveHead} {line count closer : Nat}
    {start : Position} (hlt : line < closer) (hcloser : closer < (ofText name text).lineCount) :
    ((ofText name text).inlineBlockOf head line count start closer).shownLines =
      ((ofText name text).inlineBlockOf head line count start closer).writtenLines := by
  have hbody := (blockBody?_spec (numbered_ofText name text) lineFeed_notMem_ofText
    (Nat.succ_le_of_lt hlt) hcloser).2
  simp only [inlineBlockOf, InlineBlock.shownLines, InlineBlock.writtenLines,
    InlineBlock.bodyLines]
  cases hread : (ofText name text).blockBody?
      ((ofText name text).lines.extract (line + 1) closer).toList with
  | none => rfl
  | some body =>
      have hspec := hbody body hread
      simp only [Option.map_some, Option.getD_some, hspec.splitOn_text, hspec.excerpt_eq]
      simp [Excerpt.ofSpans, charsOf]

/-- What is read as an inline block shows the lines of its text. -/
theorem shownLines_of_itemAt {c : Cursor (ofText name text)} {b : InlineBlock}
    (h : ((ofText name text).itemAt registry c).outcome = .ok (.directive (.inlineBlock b))) :
    b.shownLines = b.writtenLines := by
  unfold itemAt at h
  split at h
  · obtain ⟨d, hd, heq⟩ := map_eq_ok_iff.1 h
    cases heq
    obtain ⟨-, count, kind, -, -, hread, -⟩ := directiveAt_eq_ok hd
    cases kind with
    | inclusion =>
        obtain ⟨quote, n, start, stop, -, heq⟩ := inclusionAt_eq_ok hread
        cases heq
    | inlineBlock =>
        obtain ⟨n, start, rest, closer, htag, -, heq⟩ := inlineBlockAt_eq_ok hread
        cases heq
        obtain ⟨hlt, hlast⟩ := blockEnd?_bounds htag.closes
        have hpos := (numbered_ofText name text).pos
        exact shownLines_inlineBlockOf hlt ((Nat.le_sub_one_iff_lt hpos).1 hlast)
  · obtain ⟨t, -, heq⟩ := map_eq_ok_iff.1 h
    cases heq

end File

namespace Document

variable {a b d : Document} {block : InlineBlock}

theorem mem_inlineBlocks_iff :
    block ∈ d.inlineBlocks ↔ .directive (.inlineBlock block) ∈ d.declarations := by
  rw [inlineBlocks, List.mem_filterMap]
  constructor
  · rintro ⟨declaration, hmem, hblock⟩
    rcases declaration with f | i | b
    · cases hblock
    · cases hblock
    · cases hblock
      exact hmem
  · intro hmem
    exact ⟨_, hmem, rfl⟩

/-- A document that is parsed from a text. -/
def Parsed (d : Document) : Prop :=
  ∃ registry name text, (File.ofText name text).parse registry = .ok d

theorem Parsed.shownLines (h : d.Parsed) :
    ∀ block ∈ d.inlineBlocks, block.shownLines = block.writtenLines := by
  obtain ⟨registry, name, text, hparse⟩ := h
  intro block hblock
  have hmem : Item.directive (.inlineBlock block) ∈ d.items :=
    List.mem_flatMap.2 ⟨_, mem_inlineBlocks_iff.1 hblock, List.mem_singleton_self _⟩
  refine File.forall_mem_of_piecesFrom (p := ⟨0, 0⟩)
    (P := fun item => ∀ b, item = .directive (.inlineBlock b) → b.shownLines = b.writtenLines)
    ?_ (File.numbered_ofText name text).pos (File.items_of_parse hparse).1 _ hmem block rfl
  rintro p item hitem b rfl
  exact File.shownLines_of_itemAt hitem

/-! ## Blocks from no file -/

theorem Assembled.shownLines (h : d.Assembled) :
    ∀ block ∈ d.inlineBlocks, block.shownLines = 0 := by
  intro block hblock
  cases h _ (mem_inlineBlocks_iff.1 hblock) with
  | inlineBlock tag body => cases body <;> rfl

theorem shownLines_of_detach : ∀ block ∈ (Node.detach d).inlineBlocks, block.shownLines = 0 := by
  intro block hblock
  obtain ⟨declaration, -, hdetach⟩ := List.mem_map.1 (mem_inlineBlocks_iff.1 hblock)
  rcases declaration with f | i | b
  · cases hdetach
  · cases hdetach
  · cases hdetach
    exact b.shownLines_detach

/-! ## What an outline depends on -/

/-- The outline of a document that is parsed shows how many lines the texts have. -/
theorem Parsed.outline_eq (h : d.Parsed) : d.outline = d.outlineWith InlineBlock.writtenLines := by
  rw [outline_eq_outlineWith, outlineWith_eq_iff]
  exact h.shownLines

theorem Assembled.outline_eq (h : d.Assembled) : d.outline = d.outlineWith fun _ => 0 := by
  rw [outline_eq_outlineWith, outlineWith_eq_iff]
  exact h.shownLines

theorem outline_detach (d : Document) : (Node.detach d).outline = d.outlineWith fun _ => 0 := by
  rw [outline_eq_outlineWith, (outlineWith_eq_iff _).2 shownLines_of_detach]
  exact outlineWith_detach (fun _ => rfl) d

/-- The texts have lines unless there is none. -/
theorem outlineWith_writtenLines_eq_iff :
    d.outlineWith InlineBlock.writtenLines = d.outlineWith (fun _ => 0) ↔
      ∀ block ∈ d.inlineBlocks, block.body = none := by
  rw [outlineWith_eq_iff]
  exact forall₂_congr fun block _ => InlineBlock.writtenLines_eq_zero_iff

section Same

variable (h : Node.detach a = Node.detach b)

include h

theorem Parsed.outline_eq_outline (ha : a.Parsed) (hb : b.Parsed) : a.outline = b.outline := by
  rw [ha.outline_eq, hb.outline_eq,
    outlineWith_of_detach_eq InlineBlock.writtenLines_detach h]

theorem Assembled.outline_eq_outline (ha : a.Assembled) (hb : b.Assembled) :
    a.outline = b.outline := by
  rw [ha.outline_eq, hb.outline_eq, outlineWith_of_detach_eq (fun _ => rfl) h]

theorem Parsed.outline_eq_iff_of_assembled (ha : a.Parsed) (hb : b.Assembled) :
    a.outline = b.outline ↔ ∀ block ∈ a.inlineBlocks, block.body = none := by
  rw [ha.outline_eq, hb.outline_eq, ← outlineWith_of_detach_eq (fun _ => rfl) h,
    outlineWith_writtenLines_eq_iff]

theorem Assembled.outline_eq_iff_of_parsed (ha : a.Assembled) (hb : b.Parsed) :
    a.outline = b.outline ↔ ∀ block ∈ a.inlineBlocks, block.body = none := by
  rw [ha.outline_eq, hb.outline_eq,
    ← outlineWith_of_detach_eq InlineBlock.writtenLines_detach h, eq_comm,
    outlineWith_writtenLines_eq_iff]

end Same

theorem produced_of (h : d.Parsed ∨ d.Assembled) : d.Produced := by
  rcases h with ⟨registry, name, text, hparse⟩ | hassembled
  · exact .inl ⟨registry, File.ofText name text, hparse⟩
  · exact .inr hassembled

theorem outline_eq_iff_of_same (ha : a.Parsed ∨ a.Assembled) (hb : b.Parsed ∨ b.Assembled)
    (hsame : Node.detach a = Node.detach b) :
    a.outline = b.outline ↔ (a.Parsed ∧ b.Parsed) ∨ (a.Assembled ∧ b.Assembled) ∨
      ∀ block ∈ a.inlineBlocks, block.body = none := by
  constructor
  · intro houtline
    rcases ha with ha | ha
    · rcases hb with hb | hb
      · exact .inl ⟨ha, hb⟩
      · exact .inr (.inr ((ha.outline_eq_iff_of_assembled hsame hb).1 houtline))
    · rcases hb with hb | hb
      · exact .inr (.inr ((ha.outline_eq_iff_of_parsed hsame hb).1 houtline))
      · exact .inr (.inl ⟨ha, hb⟩)
  · rintro (⟨ha, hb⟩ | ⟨ha, hb⟩ | hbodies)
    · exact ha.outline_eq_outline hsame hb
    · exact ha.outline_eq_outline hsame hb
    · rcases ha with ha | ha
      · rcases hb with hb | hb
        · exact ha.outline_eq_outline hsame hb
        · exact (ha.outline_eq_iff_of_assembled hsame hb).2 hbodies
      · rcases hb with hb | hb
        · exact (ha.outline_eq_iff_of_parsed hsame hb).2 hbodies
        · exact ha.outline_eq_outline hsame hb

theorem Parsed.outline_eq_detach_iff (hd : d.Parsed) :
    d.outline = (Node.detach d).outline ↔ ∀ block ∈ d.inlineBlocks, block.body = none := by
  rw [hd.outline_eq, outline_detach, outlineWith_writtenLines_eq_iff]

/-- A row says how many lines the text of the body has if the block is parsed or has no body. -/
theorem row_eq_iff (hd : d.Parsed ∨ d.Assembled) (hblock : block ∈ d.inlineBlocks) :
    block.outline = block.row block.writtenLines ↔ d.Parsed ∨ block.body = none := by
  rw [InlineBlock.outline_eq_row]
  rcases hd with hd | hd
  · rw [hd.shownLines block hblock]
    exact iff_of_true rfl (.inl hd)
  · constructor
    · intro hrow
      have hlines := (InlineBlock.row_append_inj (congrArg (· ++ "") hrow)).1
      rw [hd.shownLines block hblock] at hlines
      exact .inr (InlineBlock.writtenLines_eq_zero_iff.1 hlines.symm)
    · rintro (hparsed | hbody)
      · rw [hparsed.shownLines block hblock]
      · rw [hd.shownLines block hblock, InlineBlock.writtenLines_eq_zero_iff.2 hbody]

/-- Two documents that do not diverge have the same outline if both are parsed, if both are put
together or if no block of them has a body, and only then.  So a document that is parsed has the
outline of its detached copy only if no block has a body.  The row of a block says how many lines
the text of its body has if the document is parsed or there is no body, and only then. -/
theorem outline_exact (ha : a.Parsed ∨ a.Assembled) (hb : b.Parsed ∨ b.Assembled)
    (hcompare : a.expect b = .ok ()) :
    (a.outline = b.outline ↔ (a.Parsed ∧ b.Parsed) ∨ (a.Assembled ∧ b.Assembled) ∨
      ∀ block ∈ a.inlineBlocks, block.body = none) ∧
    (a.Parsed →
      (a.outline = (Node.detach a).outline ↔ ∀ block ∈ a.inlineBlocks, block.body = none)) ∧
    ∀ block ∈ a.inlineBlocks,
      (block.outline = block.row block.writtenLines ↔ a.Parsed ∨ block.body = none) := by
  have hsame : Node.detach a = Node.detach b :=
    ((produced_of ha).expect_eq_ok_iff (produced_of hb)).1 hcompare
  exact ⟨outline_eq_iff_of_same ha hb hsame, Parsed.outline_eq_detach_iff,
    fun block => row_eq_iff ha⟩

/-- A block with one line. -/
def blockText : File := .ofText "main.kn" "#inline c\nint x;\n#end-inline c"

/-- The same block, put together. -/
def assembledBlock : Document := ⟨[Build.inlineBlock "c" (some "int x;")]⟩

theorem assembled_assembledBlock : assembledBlock.Assembled :=
  List.forall_mem_singleton.2 (.inlineBlock "c" (some "int x;"))

theorem exists_parse_blockText :
    ∃ d, blockText.parse .builtin = .ok d ∧ Node.detach d = assembledBlock ∧
      d.outline = "inline c (1 lines)\n" := by
  have hread : (blockText.parse .builtin).toOption.map (fun d => (Node.detach d, d.outline)) =
      some (assembledBlock, "inline c (1 lines)\n") := by
    decide +kernel
  obtain ⟨d, hd, hboth⟩ := Option.map_eq_some_iff.1 hread
  rw [Prod.mk.injEq] at hboth
  exact ⟨d, eq_ok_of_toOption hd, hboth⟩

theorem outline_exact_block :
    ∃ d : Document, d.Parsed ∧ assembledBlock.Assembled ∧ d.expect assembledBlock = .ok () ∧
      (d.outline = assembledBlock.outline ↔ (d.Parsed ∧ assembledBlock.Parsed) ∨
        (d.Assembled ∧ assembledBlock.Assembled) ∨ ∀ block ∈ d.inlineBlocks, block.body = none) ∧
      (d.outline = (Node.detach d).outline ↔ ∀ block ∈ d.inlineBlocks, block.body = none) ∧
      ∀ block ∈ d.inlineBlocks, block.outline = block.row block.writtenLines := by
  obtain ⟨d, hparse, hdetach, -⟩ := exists_parse_blockText
  have hparsed : d.Parsed := ⟨_, _, _, hparse⟩
  have hassembled := assembled_assembledBlock
  have hcompare : d.expect assembledBlock = .ok () := expect_eq_ok (by rw [hdetach]; rfl)
  obtain ⟨hsame, hcopy, hrows⟩ := outline_exact (.inl hparsed) (.inr hassembled) hcompare
  exact ⟨d, hparsed, hassembled, hcompare, hsame, hcopy hparsed,
    fun block hblock => (hrows block hblock).2 (.inl hparsed)⟩

/-- A block has one line in the outline of the document that is parsed, but none in those of its
detached copy and of the same document put together, which it does not diverge from. -/
theorem outline_ne_of_detached :
    ∃ d : Document, blockText.parse .builtin = .ok d ∧ d.expect assembledBlock = .ok () ∧
      assembledBlock.Assembled ∧ d.outline = "inline c (1 lines)\n" ∧
      assembledBlock.outline = "inline c (0 lines)\n" ∧
      (Node.detach d).outline = "inline c (0 lines)\n" := by
  obtain ⟨d, hparse, hdetach, houtline⟩ := exists_parse_blockText
  refine ⟨d, hparse, expect_eq_ok (by rw [hdetach]; rfl), assembled_assembledBlock, houtline,
    by decide +kernel, ?_⟩
  rw [hdetach]
  decide +kernel

end Document
end Kiln
