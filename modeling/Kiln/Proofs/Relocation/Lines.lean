import Kiln.Proofs.Relocation.Unions
import Kiln.Proofs.RoundTrip.Lines

/-!
# Lines of texts behind one another

Two texts with a line feed between them are cut into the lines of the first, the last of
which may now end differently, and those of the second, a number of lines below.  Both
are parts of the whole.  One more empty line stands between them if the first text ends
in a line feed itself.
-/

namespace Kiln

/-! ## Other lines -/

/-- The line a number of lines below. -/
def Line.down (count : Nat) (line : Line) : Line :=
  { index := line.index + count, chars := line.chars, ending := line.ending }

theorem lowers_down (count : Nat) : Lowers (Line.down count) count :=
  ⟨fun _ => rfl, fun _ => rfl⟩

/-- The line with the ending that its index has in a file. -/
def File.ended (file : File) (line : Line) : Line :=
  { index := line.index, chars := line.chars, ending := (file.line line.index).ending }

theorem File.lowers_ended (file : File) : Lowers file.ended 0 := ⟨fun _ => rfl, fun _ => rfl⟩

/-! ## Cutting texts -/

theorem head?_ne_lineFeed {cs : List Char} (h : ∀ ds, cs = '\n' :: ds → False) :
    cs.head? ≠ some '\n' := by
  intro hhead
  obtain ⟨ds, hds⟩ := List.head?_eq_some_iff.1 hhead
  exact h ds hds

/-- Below a first line it does not matter how many lines stand above. -/
theorem splitLinesAfter_down {index : Nat} {run : Array Char} {cs : List Char}
    (h : 0 < index ∨ run ≠ #[] ∨ cs ≠ []) (count : Nat) :
    splitLinesAfter (index + count) run cs =
      (splitLinesAfter index run cs).map (Line.down count) := by
  have hnext : index + count + 1 = index + 1 + count := Nat.add_right_comm index count 1
  fun_induction splitLinesAfter index run cs with
  | case1 index run hnone =>
      rw [Bool.and_eq_true, decide_eq_true_iff] at hnone
      have hpos : 0 < index + count := Nat.add_pos_left hnone.2 count
      simp [splitLinesAfter, hnone.1, hpos]
  | case2 index run hsome =>
      have hne : run.isEmpty = false := by
        rcases h with hpos | hrun | hcs
        · simpa [hpos] using hsome
        · simpa using hrun
        · exact absurd rfl hcs
      simp [splitLinesAfter, hne, Line.down]
  | case3 index run cs ih =>
      rw [splitLinesAfter, hnext, ih (.inl (Nat.succ_pos _)) (Nat.add_right_comm _ _ _)]
      rfl
  | case4 index run cs ih =>
      rw [splitLinesAfter, hnext, ih (.inl (Nat.succ_pos _)) (Nat.add_right_comm _ _ _)]
      rfl
  | case5 index run cs hfeed ih =>
      rw [splitLinesAfter_return (head?_ne_lineFeed hfeed), hnext,
        ih (.inl (Nat.succ_pos _)) (Nat.add_right_comm _ _ _)]
      rfl
  | case6 index run c cs hfeed hreturnFeed hreturn ih =>
      rw [splitLinesAfter_cons hfeed hreturn, ih (.inr (.inl (by simp))) hnext]

/-- The lines of a text that a line feed ends, whatever comes behind it: those of the text
alone but for their endings, and an empty one if the text ended with its last line. -/
structure FrontOf (index : Nat) (run : Array Char) (cs : List Char) (front : List Line) :
    Prop where
  ne_nil : front ≠ []
  chars : charsOf front = charsOf (splitLinesAfter index run cs) ∨
    charsOf front = charsOf (splitLinesAfter index run cs) ++ [[]]
  append : ∀ ds, splitLinesAfter index run (cs ++ '\n' :: ds) =
    front ++ splitLinesAfter (index + front.length) #[] ds

theorem FrontOf.cons {index : Nat} {run : Array Char} {cs cs' : List Char} {line : Line}
    {front : List Line} (h : FrontOf (index + 1) #[] cs front)
    (hline : splitLinesAfter index run cs' = line :: splitLinesAfter (index + 1) #[] cs)
    (happend : ∀ ds, splitLinesAfter index run (cs' ++ '\n' :: ds) =
      line :: splitLinesAfter (index + 1) #[] (cs ++ '\n' :: ds)) :
    FrontOf index run cs' (line :: front) := by
  refine ⟨List.cons_ne_nil _ _, ?_, ?_⟩
  · rw [hline]
    rcases h.chars with hchars | hchars
    · exact .inl (congrArg (line.chars.toList :: ·) hchars)
    · exact .inr (congrArg (line.chars.toList :: ·) hchars)
  · intro ds
    rw [happend, h.append, List.length_cons, Nat.add_right_comm, Nat.add_assoc]
    rfl

theorem exists_frontOf (index : Nat) (run : Array Char) (cs : List Char) :
    ∃ front, FrontOf index run cs front := by
  fun_induction splitLinesAfter index run cs with
  | case1 index run hnone =>
      refine ⟨[{ index, chars := run, ending := .lf }], List.cons_ne_nil _ _, .inr ?_, ?_⟩
      · rw [splitLinesAfter, if_pos hnone]
        rw [Bool.and_eq_true, Array.isEmpty_iff] at hnone
        simp [charsOf, hnone.1]
      · intro ds
        rfl
  | case2 index run hsome =>
      refine ⟨[{ index, chars := run, ending := .lf }], List.cons_ne_nil _ _, .inl ?_, ?_⟩
      · rw [splitLinesAfter, if_neg hsome]
        rfl
      · intro ds
        rfl
  | case3 index run cs ih =>
      obtain ⟨front, hfront⟩ := ih
      exact ⟨_, hfront.cons rfl fun _ => rfl⟩
  | case4 index run cs ih =>
      obtain ⟨front, hfront⟩ := ih
      exact ⟨_, hfront.cons rfl fun _ => rfl⟩
  | case5 index run cs hfeed ih =>
      cases cs with
      | nil =>
          -- the line feed joins the carriage return
          refine ⟨[{ index, chars := run, ending := .crlf }], List.cons_ne_nil _ _, .inl ?_, ?_⟩
          · simp [splitLinesAfter, charsOf]
          · intro ds
            rfl
      | cons c cs =>
          obtain ⟨front, hfront⟩ := ih
          have hhead := head?_ne_lineFeed hfeed
          have hmore : ∀ ds, (c :: cs ++ '\n' :: ds).head? ≠ some '\n' := fun _ => hhead
          exact ⟨_, hfront.cons (splitLinesAfter_return hhead index run) fun ds =>
            splitLinesAfter_return (hmore ds) index run⟩
  | case6 index run c cs hfeed hreturnFeed hreturn ih =>
      obtain ⟨front, hfront⟩ := ih
      have hcons := splitLinesAfter_cons hfeed hreturn index run
      refine ⟨front, hfront.ne_nil, ?_, ?_⟩
      · rw [hcons]
        exact hfront.chars
      · intro ds
        rw [List.cons_append, hcons]
        exact hfront.append ds

/-! ## Parts of a text -/

namespace File

theorem toList_lines_ofText (name text : String) :
    (ofText name text).lines.toList = splitLinesAfter 0 #[] text.toList := rfl

theorem charsOf_append (lines more : List Line) :
    charsOf (lines ++ more) = charsOf lines ++ charsOf more :=
  List.map_append

theorem length_charsOf (file : File) : (charsOf file.lines.toList).length = file.lineCount := by
  rw [charsOf, List.length_map, Array.length_toList, lineCount]

theorem chars_line (file : File) (index : Nat) :
    (file.line index).chars.toList = (charsOf file.lines.toList)[index]?.getD [] := by
  rw [line, Array.getD_eq_getD_getElem?, charsOf, List.getElem?_map, Array.getElem?_toList]
  cases file.lines[index]? <;> rfl

theorem index_line_ofText {name text : String} {index : Nat}
    (h : index < (ofText name text).lineCount) : ((ofText name text).line index).index = index :=
  (numbered_ofText name text).index_eq index (Nat.le_sub_one_of_lt h)

/-- A file that begins with lines of the same code points has the other one as a part. -/
theorem partOf_ended {name text text' : String}
    (h : charsOf (ofText name text).lines.toList <+: charsOf (ofText name text').lines.toList) :
    (ofText name text).PartOf (ofText name text') 0 (ofText name text').ended := by
  have hcount : (ofText name text).lineCount ≤ (ofText name text').lineCount := by
    rw [← length_charsOf, ← length_charsOf]
    exact h.length_le
  refine ⟨rfl, ?_, fun _ _ => rfl, by omega⟩
  intro index hindex
  have hsame := index_line_ofText hindex
  apply Line.ext
  · rw [Nat.add_zero, index_line_ofText (Nat.lt_of_lt_of_le hindex hcount)]
    exact hsame.symm
  · apply Array.toList_inj.1
    show (line _ index).chars.toList = (line _ index).chars.toList
    obtain ⟨more, hmore⟩ := h
    rw [chars_line, chars_line, ← hmore, List.getElem?_append_left]
    rw [length_charsOf]
    exact hindex
  · rw [ended, hsame]
    rfl

section Append

variable (name a b : String)

/-- Behind the first text and its line feed stand the lines of the second. -/
theorem lines_append :
    ∃ front, FrontOf 0 #[] a.toList front ∧
      (ofText name (a ++ "\n")).lineCount = front.length ∧
      (ofText name (a ++ "\n" ++ b)).lines.toList =
        front ++ splitLinesAfter front.length #[] b.toList := by
  obtain ⟨front, hfront⟩ := exists_frontOf 0 #[] a.toList
  have hpos : 0 < front.length := List.length_pos_iff.2 hfront.ne_nil
  have hfeed : (a ++ "\n").toList = a.toList ++ '\n' :: [] := String.toList_append
  have hboth : (a ++ "\n" ++ b).toList = a.toList ++ '\n' :: b.toList := by simp
  refine ⟨front, hfront, ?_, ?_⟩
  · rw [lineCount, ← Array.length_toList, toList_lines_ofText, hfeed, hfront.append]
    simp [splitLinesAfter, hpos]
  · rw [toList_lines_ofText, hboth, hfront.append, Nat.zero_add]

/-- The first text is a part of the whole. -/
theorem partOf_front :
    (ofText name a).PartOf (ofText name (a ++ "\n" ++ b)) 0
      (ofText name (a ++ "\n" ++ b)).ended := by
  obtain ⟨front, hfront, -, hlines⟩ := lines_append name a b
  apply partOf_ended
  rw [hlines, charsOf_append]
  refine List.IsPrefix.trans ?_ (List.prefix_append _ _)
  rcases hfront.chars with hchars | hchars
  · exact hchars ▸ List.prefix_refl _
  · exact hchars ▸ List.prefix_append _ _

/-- Between the texts stands an empty line at most. -/
theorem lineCount_front :
    (ofText name (a ++ "\n")).lineCount = (ofText name a).lineCount ∨
      (ofText name (a ++ "\n")).lineCount = (ofText name a).lineCount + 1 ∧
        ((ofText name (a ++ "\n" ++ b)).line (ofText name a).lineCount).chars.toList = [] := by
  obtain ⟨front, hfront, hcount, hlines⟩ := lines_append name a b
  have hlength : (ofText name (a ++ "\n")).lineCount = (charsOf front).length := by
    rw [hcount, charsOf, List.length_map]
  rcases hfront.chars with hchars | hchars
  · rw [hchars, ← toList_lines_ofText name, length_charsOf] at hlength
    exact .inl hlength
  · rw [hchars, List.length_append, ← toList_lines_ofText name, length_charsOf] at hlength
    refine .inr ⟨hlength, ?_⟩
    rw [chars_line, hlines, charsOf_append, hchars, ← toList_lines_ofText name,
      List.append_assoc, List.getElem?_append_right (Nat.le_of_eq (length_charsOf _)),
      length_charsOf, Nat.sub_self]
    rfl

variable {b} (hb : b ≠ "")

include hb

theorem lines_append_down :
    ∃ front : List Line, front.length = (ofText name (a ++ "\n")).lineCount ∧
      (ofText name (a ++ "\n" ++ b)).lines.toList =
        front ++ (ofText name b).lines.toList.map
          (Line.down (ofText name (a ++ "\n")).lineCount) := by
  obtain ⟨front, -, hcount, hlines⟩ := lines_append name a b
  have hne : b.toList ≠ [] := fun h => hb (String.toList_eq_nil_iff.1 h)
  have hdown : splitLinesAfter (0 + front.length) #[] b.toList = _ :=
    splitLinesAfter_down (.inr (.inr hne)) front.length
  refine ⟨front, hcount.symm, ?_⟩
  rw [hlines, hcount, toList_lines_ofText, ← hdown, Nat.zero_add]

theorem lineCount_append :
    (ofText name (a ++ "\n" ++ b)).lineCount =
      (ofText name (a ++ "\n")).lineCount + (ofText name b).lineCount := by
  obtain ⟨front, hcount, hlines⟩ := lines_append_down name a hb
  have hlength := congrArg List.length hlines
  rwa [List.length_append, List.length_map, hcount, Array.length_toList, Array.length_toList]
    at hlength

/-- The second text is a part of the whole. -/
theorem partOf_down :
    (ofText name b).PartOf (ofText name (a ++ "\n" ++ b)) (ofText name (a ++ "\n")).lineCount
      (Line.down (ofText name (a ++ "\n")).lineCount) := by
  obtain ⟨front, hcount, hlines⟩ := lines_append_down name a hb
  have hbound := lineCount_append name a hb
  refine ⟨rfl, ?_, fun _ _ => rfl, by omega⟩
  intro index hindex
  rw [← hcount] at hlines ⊢
  rw [line, line, Array.getD_eq_getD_getElem?, Array.getD_eq_getD_getElem?,
    ← Array.getElem?_toList, hlines, List.getElem?_append_right (by omega), Nat.add_sub_cancel,
    List.getElem?_map, Array.getElem?_toList, Array.getElem?_eq_getElem hindex]
  rfl

end Append
end File
end Kiln
