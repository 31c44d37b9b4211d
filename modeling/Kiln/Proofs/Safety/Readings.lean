import Kiln.Check
import Kiln.Proofs.Comparison.Produced
import Kiln.Proofs.Safety.Bounds

/-!
# Readings inside a file

Whatever is read at a position of a file, or found wrong there, stands inside the file: a token
or fault ends on its line, a directive goes on to a line of the file, and after every piece
reading goes on at a position of the file.
-/

namespace Kiln

/-! ## Distances of faults -/

/-- A fault is found at a code point that the reading has passed or come to. -/
def Reading.Reaches (r : Reading) : Prop :=
  ∀ fault distance, r.outcome = .error (fault, distance) → distance ≤ r.length

namespace Reading

theorem reaches_token (length : Nat) (kind : Kind) : (token length kind).Reaches := by
  intro fault distance h
  cases h

theorem reaches_stuck (length : Nat) (fault : LexicalFault) : (stuck length fault).Reaches := by
  intro fault distance h
  cases h
  exact Nat.le_refl _

theorem reaches_closeNumber (cs : List Char) (length : Nat) (form : NumberForm) :
    (closeNumber cs length form).Reaches := by
  unfold closeNumber
  split
  · split
    · exact reaches_stuck _ _
    · exact reaches_token _ _
  · exact reaches_token _ _

theorem reaches_readHexadecimal (cs : List Char) : (readHexadecimal cs).Reaches := by
  unfold readHexadecimal
  dsimp only
  split
  · exact reaches_stuck _ _
  · exact reaches_closeNumber _ _ _

/-- A wrong digit is one of the digits. -/
theorem reaches_readInteger (cs : List Char) (length : Nat) : (readInteger cs length).Reaches := by
  unfold readInteger
  split
  · split
    · next distance hdistance =>
        intro fault distance h
        cases h
        have hlt := (List.findIdx?_eq_some_iff_getElem.1 hdistance).1
        exact Nat.le_trans (Nat.le_of_lt hlt) (List.length_take_le _ _)
    · exact reaches_closeNumber _ _ _
  · exact reaches_closeNumber _ _ _

theorem reaches_readNumber (cs : List Char) : (readNumber cs).Reaches := by
  unfold readNumber
  dsimp only
  split
  · exact reaches_readHexadecimal cs
  · split
    · split
      · exact reaches_stuck _ _
      · exact reaches_closeNumber _ _ _
    · split
      · exact reaches_readInteger _ _
      · exact reaches_closeNumber _ _ _

theorem reaches_readString (cs : List Char) : (readString cs).Reaches := by
  unfold readString
  split
  · exact reaches_token _ _
  · exact reaches_stuck _ _

theorem reaches_readToken (cs : List Char) : (readToken cs).Reaches := by
  cases cs with
  | nil => exact reaches_stuck _ _
  | cons c cs =>
      simp only [readToken]
      split
      · exact reaches_token _ _
      · split
        · exact reaches_readNumber _
        · split
          · exact reaches_readString _
          · split
            · split
              · exact reaches_token _ _
              · exact reaches_stuck _ _
            · exact reaches_stuck _ _

end Reading

/-- A fault is on the line of its token. -/
theorem distance_le_of_readToken {cs : List Char} {fault : LexicalFault} {distance : Nat}
    (h : (readToken cs).outcome = .error (fault, distance)) : distance ≤ cs.length :=
  Nat.le_trans (Reading.reaches_readToken cs fault distance h) (length_readToken_le cs)

/-! ## What is found -/

/-- A piece of a file whose leaves are inside the file, and behind which reading goes on in the
file, or a report of places inside the file. -/
structure Found.Within {α : Type} (file : File) (leavesOf : α → List Excerpt) (found : Found α) :
    Prop where
  ok : ∀ a, found.outcome = .ok a → (∀ e ∈ leavesOf a, e.Inside file) ∧ file.Holds found.stop
  error : ∀ d, found.outcome = .error d → d.Everywhere (Excerpt.Inside file)

namespace Found.Within

variable {α β : Type} {file : File} {leavesOf : α → List Excerpt} {found : Found α} {stop : Position}

theorem of_ok {a : α} (hleaves : ∀ e ∈ leavesOf a, e.Inside file) (hstop : file.Holds stop) :
    Within file leavesOf ⟨.ok a, stop⟩ where
  ok b h := by
    cases h
    exact ⟨hleaves, hstop⟩
  error d h := by cases h

theorem of_error {d : Diagnostic} (hd : d.Everywhere (Excerpt.Inside file)) :
    Within file leavesOf ⟨.error d, stop⟩ where
  ok a h := by cases h
  error d h := by
    cases h
    exact hd

theorem map {f : α → β} {leavesOf' : β → List Excerpt} (hfound : Within file leavesOf found)
    (h : ∀ a, leavesOf' (f a) = leavesOf a) : Within file leavesOf' (found.map f) where
  ok b hb := by
    obtain ⟨a, ha, rfl⟩ := map_eq_ok_iff.1 hb
    rw [h]
    exact hfound.ok a ha
  error d hd := hfound.error d (map_eq_error_iff.1 hd)

end Found.Within

namespace File

variable {file : File} {p : Position} {head : DirectiveHead} (hfile : file.Numbered)

include hfile

/-! ## Tokens -/

theorem within_tokenAt {c : Cursor file} (hc : file.Holds c.position) :
    (file.tokenAt c).Within file leaves := by
  have hlength := length_readToken_le c.rest
  rw [c.rest_eq] at hlength
  rw [tokenAt]
  cases h : (readToken c.rest).outcome with
  | ok kind =>
      simp only [c.rest_eq] at h ⊢
      refine .of_ok (List.forall_mem_singleton.2 ?_) (hc.right hlength)
      exact inside_stretch hfile hc hlength
  | error fault =>
      obtain ⟨fault, distance⟩ := fault
      have hdistance := distance_le_of_readToken h
      rw [c.rest_eq] at hdistance
      refine .of_error (fault.everywhere_reportAt ?_ ?_)
      · exact inside_charExcerpt hfile (hc.right hdistance)
      · exact inside_charExcerpt hfile hc

/-! ## Inclusions -/

theorem everywhere_textAfter (hp : file.Holds p) {count : Nat} (h : file.textBehind? p = some count)
    (text directive : String) :
    ((DirectiveFault.textAfter text directive).report (file.stretch p count)).Everywhere
      (Excerpt.Inside file) :=
  DirectiveFault.everywhere_report _ (inside_stretch hfile hp (textBehind?_le h))

theorem within_closeInclusion {i : Inclusion} (hi : ∀ e ∈ leaves i, e.Inside file)
    (hp : file.Holds p) : (file.closeInclusion i p).Within file leaves := by
  rw [closeInclusion]
  dsimp only
  split
  · exact .of_ok hi hp.skipBlanksInLine
  · next count hcount => exact .of_error (everywhere_textAfter hfile hp.skipBlanksInLine hcount _ _)

variable (hhead : ∀ e ∈ leaves head, e.Inside file)

include hhead

theorem within_pathAt (quote : PathQuote) (hp : file.Holds p) (hline : file.atLineEnd p = false) :
    (file.pathAt head quote p).Within file leaves := by
  have hopener := inside_stretch_one hfile hp hline
  have hstart := hp.right_one hline
  have hcount := length_takeWhile_le (fun c => !closesPath c) (file.rest (p.right 1))
  rw [pathAt]
  dsimp only
  generalize ((file.rest (p.right 1)).takeWhile fun c => !closesPath c).length = count at hcount ⊢
  have hstop := hstart.right hcount
  split
  · exact .of_error (DirectiveFault.everywhere_reportFrom _ (inside_pointAt hfile hstop) hopener)
  · next c hc =>
      have hend : file.atLineEnd ((p.right 1).right count) = false :=
        atLineEnd_eq_false_iff.2 ⟨c, hc⟩
      have hcloser := inside_stretch_one hfile hstop hend
      split
      · split
        · refine .of_error (DirectiveFault.everywhere_report _ ?_)
          refine Excerpt.inside_union (List.cons_ne_nil _ _) ?_
          exact List.forall_mem_cons.2 ⟨hopener, List.forall_mem_singleton.2 hcloser⟩
        · refine within_closeInclusion hfile ?_ (hstop.right_one hend)
          refine List.forall_mem_append.2 ⟨hhead, ?_⟩
          refine List.forall_mem_cons.2 ⟨hopener, List.forall_mem_cons.2 ⟨?_, ?_⟩⟩
          · exact inside_stretch hfile hstart hcount
          · exact List.forall_mem_singleton.2 hcloser
      · refine .of_error (DirectiveFault.everywhere_reportFrom _ ?_ hopener)
        exact inside_charExcerpt hfile hstop

theorem within_inclusionAt (hp : file.Holds p) : (file.inclusionAt head p).Within file leaves := by
  have hstart := hp.skipBlanksInLine
  rw [inclusionAt]
  split
  · exact .of_error (DirectiveFault.everywhere_report _ (inside_pointAt hfile hstart))
  · next c hc =>
      split
      · exact .of_error (DirectiveFault.everywhere_report _ (inside_charExcerpt hfile hstart))
      · exact within_pathAt hfile hhead _ hstart (atLineEnd_eq_false_iff.2 ⟨c, hc⟩)

/-! ## Inline blocks -/

omit hhead in
theorem inside_wholeLine {index : Nat} (h : index < file.lineCount) :
    (Excerpt.ofHighlight file.name (file.line index) ⟨0, (file.line index).length⟩).Inside file :=
  Excerpt.inside_ofHighlight hfile h ⟨Nat.zero_le _, Nat.le_refl _⟩

omit hhead in
/-- The body of a block shows its lines. -/
theorem inside_blockBody? {first last : Nat} (hle : first ≤ last) (hlast : last < file.lineCount) :
    ∀ body ∈ file.blockBody? (file.lines.extract first last).toList, body.excerpt.Inside file := by
  rw [extract_eq_map_line hle (Nat.le_of_lt hlast)]
  intro body hbody
  rw [blockBody?] at hbody
  split at hbody
  · cases hbody
  · next hlines =>
      cases hbody
      refine Excerpt.inside_union ?_ ?_
      · simpa using hlines
      · simp only [List.forall_mem_map, List.mem_range'_1]
        intro index hindex
        exact inside_wholeLine hfile (by omega)

omit hhead in
/-- A line other than a blank one is shown without the blanks around it. -/
theorem inside_trimmedLine {index : Nat} (h : index < file.lineCount)
    (hblank : ∃ c ∈ (file.line index).chars.toList, isBlank c = false) :
    (file.trimmedLine index).Inside file := by
  refine Excerpt.inside_ofHighlight hfile h ⟨?_, ?_⟩
  · exact Nat.le_of_lt (length_takeWhile_lt_trimmedLength hblank)
  · have hle := trimmedLength_le (file.line index).chars.toList
    rwa [Array.length_toList] at hle

theorem within_blockAt {tag : Token} (htag : tag.excerpt.Inside file) {line : Nat}
    (hline : line < file.lineCount) : (file.blockAt head tag line).Within file leaves := by
  rw [blockAt]
  split
  · have hend := inside_pointAt hfile (holds_endPosition (Nat.zero_lt_of_lt hline))
    refine .of_error (DirectiveFault.everywhere_reportFrom _ hend ?_)
    refine Excerpt.inside_union (List.cons_ne_nil _ _) ?_
    refine List.forall_mem_cons.2 ⟨?_, List.forall_mem_singleton.2 htag⟩
    exact Leafy.inside_excerpt (Anchored.leaves_ne_nil head) hhead
  · next closer hcloser =>
      have hlt := (blockEnd?_bounds hcloser).1
      have hsize := (lt_size_of_findLine? hcloser).2
      refine .of_ok ?_ (holds_lineEnd hsize)
      refine List.forall_mem_append.2 ⟨List.forall_mem_append.2 ⟨List.forall_mem_append.2
        ⟨hhead, List.forall_mem_singleton.2 htag⟩, ?_⟩, List.forall_mem_singleton.2 ?_⟩
      · intro e he
        obtain ⟨body, hbody, he⟩ := List.mem_flatMap.1 he
        rw [List.mem_singleton.1 he]
        exact inside_blockBody? hfile hlt hsize body (Option.mem_toList.1 hbody)
      · exact inside_trimmedLine hfile hsize
          (Line.not_blank_of_closesBlock (accept_of_findLine? hcloser))

theorem within_inlineBlockAt (hp : file.Holds p) :
    (file.inlineBlockAt head p).Within file leaves := by
  have hstart := hp.skipBlanksInLine
  have hcount := length_takeWhile_le isWordPart (file.rest (file.skipBlanksInLine p))
  rw [inlineBlockAt]
  dsimp only
  generalize ((file.rest (file.skipBlanksInLine p)).takeWhile isWordPart).length = count
    at hcount ⊢
  split
  · exact .of_error (DirectiveFault.everywhere_report _ (inside_charExcerpt hfile hstart))
  · have hstop := (hstart.right hcount).skipBlanksInLine
    split
    · next behind hbehind => exact .of_error (everywhere_textAfter hfile hstop hbehind _ _)
    · exact within_blockAt hfile hhead (inside_stretch hfile hstart hcount) hp.line_lt

omit hhead

/-! ## Items -/

theorem inside_headAt (hp : file.Holds p) (hline : file.atLineEnd p = false) {count : Nat}
    (hcount : count ≤ (file.rest (p.right 1)).length) :
    ∀ e ∈ leaves (file.headAt p count), e.Inside file := by
  refine List.forall_mem_cons.2 ⟨?_, List.forall_mem_singleton.2 ?_⟩
  · exact inside_stretch_one hfile hp hline
  · exact inside_stretch hfile (hp.right_one hline) hcount

variable (registry : Registry)

theorem within_directiveAt (hp : file.Holds p) (hline : file.atLineEnd p = false) :
    (file.directiveAt registry p).Within file leaves := by
  have hstart := hp.right_one hline
  have hcount := length_takeWhile_le isDirectiveNamePart (file.rest (p.right 1))
  rw [directiveAt]
  dsimp only
  generalize ((file.rest (p.right 1)).takeWhile isDirectiveNamePart).length = count at hcount ⊢
  split
  · split
    · exact .of_error (DirectiveFault.everywhere_report _ (inside_charExcerpt hfile hstart))
    · split
      · refine .of_error (DirectiveFault.everywhere_report _ ?_)
        exact inside_stretch hfile hstart hcount
      · next kind _ =>
          have hhead := inside_headAt hfile hp hline hcount
          cases kind with
          | inclusion => exact within_inclusionAt hfile hhead (hstart.right hcount)
          | inlineBlock => exact within_inlineBlockAt hfile hhead (hstart.right hcount)
  · exact .of_error (DirectiveFault.everywhere_report _ (inside_charExcerpt hfile hp))

theorem within_itemAt {c : Cursor file} (hc : file.Holds c.position) :
    (file.itemAt registry c).Within file Item.leaves := by
  rw [itemAt]
  split
  · next hhash =>
      rw [c.rest_eq, head?_rest] at hhash
      have hline := atLineEnd_eq_false_iff.2 ⟨'#', hhash⟩
      exact (within_directiveAt hfile registry hc hline).map fun _ => rfl
  · exact (within_tokenAt hfile hc).map fun _ => rfl

omit hfile in
/-- If each piece of a file is found within it, so are the pieces from a position on. -/
theorem inside_of_piecesFrom {α : Type} {readAt : Cursor file → Found α}
    {advances : file.Advances readAt} {leavesOf : α → List Excerpt}
    (h : ∀ c : Cursor file, file.Holds c.position → (readAt c).Within file leavesOf)
    (hp : file.Holds p) :
    (∀ as, piecesFrom advances p = .ok as → ∀ a ∈ as, ∀ e ∈ leavesOf a, e.Inside file) ∧
      ∀ d, piecesFrom advances p = .error d → d.Everywhere (Excerpt.Inside file) := by
  refine reading_induct advances
    (motive := fun p => file.Holds p →
      (∀ as, piecesFrom advances p = .ok as → ∀ a ∈ as, ∀ e ∈ leavesOf a, e.Inside file) ∧
        ∀ d, piecesFrom advances p = .error d → d.Everywhere (Excerpt.Inside file))
    ?below ?blank ?piece hp.line_lt hp
  case below =>
    intro p _ hrest ih hp
    rw [piecesFrom_passed hrest, piecesOfLine]
    split
    · next hline => exact ih hline (holds_lineStart hline)
    · refine ⟨fun as has => ?_, fun d hd => ?_⟩
      · cases has
        exact List.forall_mem_nil _
      · cases hd
  case blank =>
    intro p c more _ hrest hc ih hp
    rw [piecesFrom_blank hrest hc]
    exact ih (hp.right_one (atLineEnd_of_rest_cons hrest))
  case piece =>
    intro p c more _ hrest hblank hcomment ih hp
    have hpiece := h (file.cursor p) hp
    refine ⟨fun as has => ?_, fun d hd => ?_⟩
    · obtain ⟨a, behind, ha, hbehind, rfl⟩ := (piecesFrom_eq_ok_iff hrest hblank hcomment).1 has
      obtain ⟨hleaves, hstop⟩ := hpiece.ok a ha
      exact List.forall_mem_cons.2 ⟨hleaves, (ih a ha hstop).1 behind hbehind⟩
    · rcases (piecesFrom_eq_error_iff hrest hblank hcomment).1 hd with hd | ⟨a, ha, hd⟩
      · exact hpiece.error d hd
      · exact (ih a ha (hpiece.ok a ha).2).2 d hd

/-- The items of a file are inside it, and so is a fault in one. -/
theorem inside_items :
    (∀ items, file.items registry = .ok items →
      ∀ item ∈ items, ∀ e ∈ item.leaves, e.Inside file) ∧
      ∀ d, file.items registry = .error d → d.Everywhere (Excerpt.Inside file) :=
  inside_of_piecesFrom (p := ⟨0, 0⟩) (fun _ => within_itemAt hfile registry)
    (holds_lineStart hfile.pos)

end File
end Kiln
