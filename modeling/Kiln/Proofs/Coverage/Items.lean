import Kiln.Proofs.Coverage.Blocks

/-!
# Items account for a file

Reading the items of a file loses no code point and reads none twice.  The stretches of
all items come in source order; what they leave out is blanks and comments; and a
directive shares no line with another item.
-/

namespace Kiln
namespace File

variable {file : File}

/-! ## One item -/

theorem readFrom_directiveAt {registry : Registry} (hfile : file.Numbered) {p : Position}
    {d : Directive} (hhash : file.charAt p = some '#')
    (h : (file.directiveAt registry p).outcome = .ok d) :
    Item.ReadFrom file (.directive d) p (file.directiveAt registry p).stop := by
  obtain ⟨hblanks, count, kind, hcount, hle, hkind, hstop⟩ := directiveAt_eq_ok h
  rw [hstop]
  cases kind with
  | inclusion =>
      obtain ⟨quote, pathCount, start, stop, hpath, rfl⟩ := inclusionAt_eq_ok hkind
      exact readFrom_inclusion hfile hhash hblanks hcount hle hpath
  | inlineBlock =>
      obtain ⟨tagCount, start, rest, closer, htag, hend, rfl⟩ := inlineBlockAt_eq_ok hkind
      have hstop' : (file.directiveOfKindAt .inlineBlock (file.headAt p count)
          ((p.right 1).right count)).stop = file.lineEnd closer := hend
      rw [hstop']
      exact readFrom_inlineBlock hfile hhash hblanks hcount hle htag

/-- Whatever item is read is a piece of the file. -/
theorem readFrom_itemAt {registry : Registry} (hfile : file.Numbered) {c : Cursor file}
    {item : Item} (hline : c.position.line ≤ file.lastIndex)
    (h : (file.itemAt registry c).outcome = .ok item) :
    item.ReadFrom file c.position (file.itemAt registry c).stop := by
  unfold itemAt at h ⊢
  split at h
  · next hhash =>
      rw [if_pos hhash]
      cases hd : (file.directiveAt registry c.position).outcome with
      | error d => simp [Found.map, hd, Except.map] at h
      | ok d =>
          have hitem : item = .directive d := by simpa [Found.map, hd, Except.map, eq_comm] using h
          rw [c.rest_eq, head?_rest] at hhash
          rw [hitem]
          exact readFrom_directiveAt hfile hhash hd
  · next hhash =>
      rw [if_neg hhash]
      cases ht : (file.tokenAt c).outcome with
      | error d => simp [Found.map, ht, Except.map] at h
      | ok t =>
          have hitem : item = .token t := by simpa [Found.map, ht, Except.map, eq_comm] using h
          rw [hitem]
          exact readFrom_tokenAt hfile hline ht

/-! ## Beginnings of lines -/

theorem slice_zero (line : Line) (column : Nat) :
    line.slice 0 column = line.chars.toList.take column := by
  rw [Line.slice, Array.toList_extract, List.extract_eq_take_drop, Nat.sub_zero, List.drop_zero]

/-- Only blanks come before a position exactly if every code point before it on its
line is one. -/
theorem onlyBlanksBefore_iff {p : Position} :
    file.onlyBlanksBefore p = true ↔
      ∀ x c, x.line = p.line → x.column < p.column → file.charAt x = some c →
        isBlank c = true := by
  rw [onlyBlanksBefore, slice_zero, List.all_eq_true]
  constructor
  · intro h x c hline hcolumn hc
    rw [charAt_eq_getElem?, lineAt, hline] at hc
    refine h c (List.mem_of_getElem? (i := x.column) ?_)
    rw [List.getElem?_take_of_lt hcolumn]
    exact hc
  · intro h c hc
    obtain ⟨i, hi⟩ := List.mem_iff_getElem?.1 hc
    have hlt : i < p.column := by
      have hbound := (List.getElem?_eq_some_iff.1 hi).1
      rw [List.length_take] at hbound
      omega
    rw [List.getElem?_take_of_lt hlt] at hi
    refine h ⟨p.line, i⟩ c rfl hlt ?_
    rw [charAt_eq_getElem?]
    exact hi

/-! ## All items from a cursor on -/

/-- One of two items is a directive and they have a line in common. -/
def SharesLine (a b : Item) : Prop :=
  (a.isDirective = true ∨ b.isDirective = true) ∧
    ∃ r ∈ a.stretches, ∃ s ∈ b.stretches, r.line = s.line

/-- The items read from a cursor on account for the file from there on. -/
structure AccountsFrom (file : File) (items : List Item) (c : Cursor file) : Prop where
  placed : ∀ item ∈ items, item.Placed file
  ordered : (items.flatMap Item.stretches).Pairwise Stretch.Before
  behind : ∀ r ∈ items.flatMap Item.stretches, c.passed ≤ r.first
  accounted : Accounted file (items.flatMap Item.stretches) c.position file.bottom
  apart : items.Pairwise fun a b => ¬SharesLine a b
  alone : ∀ item ∈ items, item.isDirective = true → ∀ r ∈ item.stretches,
    c.position.line < r.line ∨ file.onlyBlanksBefore c.position = true

theorem accountsFrom_nil {c : Cursor file} (hline : c.position.line < file.lineCount)
    (hend : c.skipTrivia.atEnd = true) : AccountsFrom file [] c := by
  refine ⟨by simp, by simp, by simp, ?_, by simp, by simp⟩
  rw [← c.passed_of_atEnd hend]
  exact Cursor.accounted_passed (by simp) hline

/-- A directive is over on a line above all that follows. -/
theorem line_lt_of_alone {q : Position} (hline : q.line < file.lineCount)
    (halone : file.atLineEnd q = true ∨ file.startsWith q commentMark = true) {r : Stretch}
    (hr : (file.cursor q).passed ≤ r.first) : q.line < r.line := by
  cases hend : (file.cursor q).skipTrivia.atEnd with
  | true =>
      rw [Cursor.passed_of_atEnd hend] at hr
      simp only [Position.le_def, bottom, Stretch.first] at hr
      omega
  | false =>
      rw [Cursor.passed_of_not_atEnd hend] at hr
      rcases Cursor.skipTrivia_of_lineEnd (c := file.cursor q) halone with h | h
      · rw [hend] at h
        cases h
      · simp only [Position.le_def, Stretch.first, position_cursor] at hr h
        omega

section

variable {c : Cursor file} {item : Item} {items : List Item} {q : Position}

/-- What follows an item comes behind its stretches. -/
theorem before_of_readFrom (hread : item.ReadFrom file c.skipTrivia.position q)
    (hq : q.line < file.lineCount) {r s : Stretch} (hr : r ∈ item.stretches)
    (hs : (file.cursor q).passed ≤ s.first) : r.Before s := by
  have hle := Position.le_trans (hread.inside r hr).2
    (Position.le_trans (Cursor.le_passed (c := file.cursor q) hq) hs)
  simp only [Position.le_def, Stretch.first, Stretch.last] at hle
  rcases hread.placed.filled r hr with hfilled | hempty
  · rcases hle with hlt | ⟨heq, hle⟩
    · exact Or.inl hlt
    · exact Or.inr ⟨heq, by omega, hle⟩
  · -- an empty stretch is one of a directive, which has its lines to itself
    obtain ⟨b, body, rfl, -⟩ := hempty
    have hbelow := line_lt_of_alone hq (hread.alone rfl).2 hs
    have hlast := (hread.inside r hr).2
    simp only [Position.le_def, Stretch.last] at hlast
    exact Or.inl (by omega)

/-- An item other than a directive keeps a later one off its line, unless that is no
directive either. -/
theorem line_lt_of_directive (hstops : ∃ ch, file.charAt c.skipTrivia.position = some ch ∧
      isBlank ch = false)
    (hread : item.ReadFrom file c.skipTrivia.position q) (htoken : item.isDirective = false)
    {s : Stretch} (hs : q.line < s.line ∨ file.onlyBlanksBefore q = true) : q.line < s.line := by
  rcases hs with hs | hs
  · exact hs
  · -- the item itself stands before `q` on its line
    obtain ⟨ch, hch, hblank⟩ := hstops
    have hline := hread.sameLine htoken
    have hforward := hread.forward
    rw [Position.lt_def] at hforward
    have hall := onlyBlanksBefore_iff.1 hs c.skipTrivia.position ch hline (by omega) hch
    rw [hblank] at hall
    cases hall

theorem not_sharesLine (hstops : ∃ ch, file.charAt c.skipTrivia.position = some ch ∧
      isBlank ch = false)
    (hread : item.ReadFrom file c.skipTrivia.position q) (hq : q.line < file.lineCount)
    (htail : AccountsFrom file items (file.cursor q)) {other : Item} (hother : other ∈ items) :
    ¬SharesLine item other := by
  rintro ⟨hdirective, r, hr, s, hs, hline⟩
  have hlast := (hread.inside r hr).2
  simp only [Position.le_def, Stretch.last] at hlast
  have hbelow : q.line < s.line := by
    cases hitem : item.isDirective with
    | true =>
        apply line_lt_of_alone hq (hread.alone hitem).2
        exact htail.behind s (List.mem_flatMap.2 ⟨other, hother, hs⟩)
    | false =>
        rw [hitem] at hdirective
        have hotherDirective : other.isDirective = true := by simpa using hdirective
        exact line_lt_of_directive hstops hread hitem (htail.alone other hother hotherDirective s hs)
  omega

/-- A directive leaves only blanks before it on its line, all the way back. -/
theorem alone_of_le {p q : Position} (hle : p ≤ q) {r : Stretch} (hr : q ≤ r.first)
    (h : q.line < r.line ∨ file.onlyBlanksBefore q = true) :
    p.line < r.line ∨ file.onlyBlanksBefore p = true := by
  simp only [Position.le_def, Stretch.first] at hle hr
  by_cases hline : p.line < r.line
  · exact Or.inl hline
  · rcases h with h | h
    · exact absurd (Nat.lt_of_le_of_lt (by omega) h) hline
    · refine Or.inr (onlyBlanksBefore_iff.2 ?_)
      intro x ch hx hcolumn hch
      exact onlyBlanksBefore_iff.1 h x ch (by omega) (by omega) hch

/-- An item and the items behind it account for the file from the cursor on. -/
theorem accountsFrom_cons (hline : c.position.line < file.lineCount)
    (hend : c.skipTrivia.atEnd = false)
    (hread : item.ReadFrom file c.skipTrivia.position q) (hq : q.line < file.lineCount)
    (htail : AccountsFrom file items (file.cursor q)) : AccountsFrom file (item :: items) c := by
  obtain ⟨ch, hch, hblank, -⟩ := Cursor.skipTrivia_stops hend
  have hstops : ∃ ch, file.charAt c.skipTrivia.position = some ch ∧ isBlank ch = false :=
    ⟨ch, hch, hblank⟩
  have hpassed := Cursor.passed_of_not_atEnd hend
  have hback := Cursor.le_skipTrivia hend
  have hforward := Position.le_of_lt hread.forward
  have hnext := Cursor.le_passed (c := file.cursor q) hq
  have htailBehind : ∀ s ∈ items.flatMap Item.stretches, q ≤ s.first :=
    fun s hs => Position.le_trans hnext (htail.behind s hs)
  refine ⟨?_, ?_, ?_, ?_, ?_, ?_⟩
  · rw [List.forall_mem_cons]
    exact ⟨hread.placed, htail.placed⟩
  · rw [List.flatMap_cons, List.pairwise_append]
    refine ⟨hread.placed.located.ordered, htail.ordered, ?_⟩
    intro r hr s hs
    exact before_of_readFrom hread hq hr (htail.behind s hs)
  · intro r hr
    rw [hpassed]
    rcases List.mem_append.1 hr with hr | hr
    · exact (hread.inside r hr).1
    · exact Position.le_trans hforward (htailBehind r hr)
  · have htrivia : Accounted file (item.stretches ++ items.flatMap Item.stretches) c.position
        c.passed := by
      refine Cursor.accounted_passed ?_ hline
      rw [hpassed]
      intro r hr
      rcases List.mem_append.1 hr with hr | hr
      · exact (hread.inside r hr).1
      · exact Position.le_trans hforward (htailBehind r hr)
    rw [hpassed] at htrivia
    have hitem := hread.accounted.append_right htailBehind
    have hrest := htail.accounted.append_left fun r hr => (hread.inside r hr).2
    exact htrivia.trans (hitem.trans hrest)
  · rw [List.pairwise_cons]
    exact ⟨fun other hother => not_sharesLine hstops hread hq htail hother, htail.apart⟩
  · rw [List.forall_mem_cons]
    constructor
    · intro hdirective r hr
      exact alone_of_le hback (hread.inside r hr).1 (Or.inr (hread.alone hdirective).1)
    · intro other hother hdirective r hr
      have hmem : r ∈ items.flatMap Item.stretches := List.mem_flatMap.2 ⟨other, hother, hr⟩
      exact alone_of_le (Position.le_trans hback hforward) (htailBehind r hmem)
        (htail.alone other hother hdirective r hr)

end

/-- All items that are read from a cursor on account for the file from there on. -/
theorem accountsFrom_readAllFrom {registry : Registry} (hfile : file.Numbered)
    {c : Cursor file} (hline : c.position.line < file.lineCount) {items : List Item}
    (h : file.readAllFrom (file.itemAt registry) (file.itemAt_advances registry) c = .ok items) :
    AccountsFrom file items c := by
  induction hn : file.left c.position using Nat.strongRecOn generalizing c items with
  | ind n ih =>
      cases hend : c.skipTrivia.atEnd with
      | true =>
          rw [readAllFrom_of_atEnd hend] at h
          cases h
          exact accountsFrom_nil hline hend
      | false =>
          rw [readAllFrom_of_not_atEnd hend] at h
          cases hitem : (file.itemAt registry c.skipTrivia).outcome with
          | error d =>
              rw [hitem] at h
              cases h
          | ok item =>
              rw [hitem] at h
              obtain ⟨rest, hrest, rfl⟩ := map_eq_ok_iff.1 h
              have hstart : c.skipTrivia.atLineEnd = false := by
                obtain ⟨ch, hch, -⟩ := Cursor.skipTrivia_stops hend
                rw [Cursor.atLineEnd_eq]
                exact atLineEnd_eq_false_iff.2 ⟨ch, hch⟩
              have hlast : c.skipTrivia.position.line ≤ file.lastIndex := by
                rw [Cursor.atLineEnd_eq] at hstart
                exact line_le_of_not_atLineEnd hstart
              have hread := readFrom_itemAt hfile hlast hitem
              have hforward := file.itemAt_advances registry c.skipTrivia item hstart hitem
              have hq : (file.itemAt registry c.skipTrivia).stop.line < file.lineCount := by
                have hpos := hfile.pos
                simp only [lastIndex] at hlast
                simp only [lineCount]
                rcases hforward with ⟨hsame, -⟩ | ⟨-, hle⟩
                · omega
                · simp only [lastIndex] at hle
                  omega
              have hleft : file.left (file.itemAt registry c.skipTrivia).stop < n :=
                hn ▸ left_lt_of_forward hend fun _ => hforward
              exact accountsFrom_cons hline hend hread hq (ih _ hleft hq hrest rfl)

/-! ## Whole files -/

/-- The code point at a position, the terminator of the line included. -/
def codePoint? (file : File) (p : Position) : Option Char :=
  ((file.lineAt p).chars.toList ++ (file.lineAt p).ending.chars)[p.column]?

theorem isBlank_of_mem_ending {ending : Ending} {c : Char} (h : c ∈ ending.chars) :
    isBlank c = true := by
  cases ending with
  | unterminated => cases h
  | lf =>
      rw [List.mem_singleton.1 h]
      decide
  | cr =>
      rw [List.mem_singleton.1 h]
      decide
  | crlf =>
      simp only [Ending.chars, List.mem_cons, List.not_mem_nil, or_false] at h
      rcases h with rfl | rfl
      · decide
      · decide

/-- The items of a file account for it: their tokens are slices of its lines; their
stretches come in source order, an empty one standing for an empty line of a body only;
each code point left out is a blank or in a comment of which nothing is covered; and a
directive has its lines to itself. -/
structure AccountsFor (file : File) (items : List Item) : Prop where
  slices : ∀ item ∈ items, ∀ t ∈ item.tokens, t.IsSlice file
  located : ∀ item ∈ items, item.excerpt.Located file
  ordered : (items.flatMap Item.stretches).Pairwise Stretch.Before
  filled : ∀ item ∈ items, ∀ r ∈ item.stretches,
    r.start < r.stop ∨ item.HasEmptyBodyLine file r
  accounted : ∀ x c, file.codePoint? x = some c →
    Covered (items.flatMap Item.stretches) x ∨ isBlank c = true ∨
      ∃ start : Position, start.line = x.line ∧ start ≤ x ∧
        file.startsWith start commentMark = true ∧
        ∀ y : Position, y.line = x.line → start ≤ y →
          ¬Covered (items.flatMap Item.stretches) y
  apart : items.Pairwise fun a b => ¬SharesLine a b

/-- Reading the items of a file accounts for all of it. -/
theorem accountsFor_of_items {name text : String} {registry : Registry} {items : List Item}
    (h : (File.ofText name text).items registry = .ok items) :
    (File.ofText name text).AccountsFor items := by
  have hfile := numbered_ofText name text
  have hall := accountsFrom_readAllFrom hfile (c := (File.ofText name text).cursor ⟨0, 0⟩)
    hfile.pos h
  refine ⟨fun item hitem => (hall.placed item hitem).slices,
    fun item hitem => (hall.placed item hitem).located, hall.ordered,
    fun item hitem => (hall.placed item hitem).filled, ?_, hall.apart⟩
  intro x c hc
  rw [codePoint?] at hc
  rcases Nat.lt_or_ge x.column ((File.ofText name text).lineAt x).chars.toList.length with hlt | hge
  · rw [List.getElem?_append_left hlt, ← charAt_eq_getElem?] at hc
    have hfirst : (⟨0, 0⟩ : Position) ≤ x := by
      simp only [Position.le_def]
      omega
    rcases hall.accounted.cases x c hfirst (lt_bottom hc) hc with hcovered | hblank | hcomment
    · exact Or.inl hcovered
    · exact Or.inr (Or.inl hblank)
    · obtain ⟨-, start, hline, -, hle, hmark, huncovered⟩ := hcomment
      exact Or.inr (Or.inr ⟨start, hline, hle, hmark, huncovered⟩)
  · rw [List.getElem?_append_right hge] at hc
    exact Or.inr (Or.inl (isBlank_of_mem_ending (List.mem_of_getElem? hc)))

/-- An inclusion, a block with an empty line and a function, with comments. -/
theorem accountsFor_of_items_mixed :
    ∃ items, (File.ofText "main.kn"
        "#include <a> // b\n#inline c\n\n#end-inline c\nfun f() { } // g\n").items
          Registry.builtin = .ok items ∧ items.length = 8 ∧
      (File.ofText "main.kn"
        "#include <a> // b\n#inline c\n\n#end-inline c\nfun f() { } // g\n").AccountsFor items := by
  have hlength : ((File.ofText "main.kn"
      "#include <a> // b\n#inline c\n\n#end-inline c\nfun f() { } // g\n").items
        Registry.builtin).toOption.map List.length = some 8 := by
    decide +kernel
  cases h : (File.ofText "main.kn"
      "#include <a> // b\n#inline c\n\n#end-inline c\nfun f() { } // g\n").items
        Registry.builtin with
  | error d =>
      rw [h] at hlength
      cases hlength
  | ok items =>
      rw [h] at hlength
      exact ⟨items, rfl, Option.some_inj.1 hlength, accountsFor_of_items h⟩

end File
end Kiln
