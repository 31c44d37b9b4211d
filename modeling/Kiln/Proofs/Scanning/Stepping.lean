import Kiln.Proofs.Safety.Accesses
import Kiln.Proofs.Scanning.Moves
import Mathlib.Data.List.Iterate

/-!
# Stepping over a file

A cursor that steps from the beginning of a file passes over empty lines, be they at the
beginning, in between or at the end, and so it comes to every code point once, in the order in
which they stand in the file, before it reaches the end of the file, where it stays.

A step is known by the places that are still to be visited (`File.placesFrom`): from a code point
it takes the first of them away, and from the end of a line none.

On a line, looking ahead shows what is seen after as many steps that do not leave the line, for as
many steps as a column can be counted.
-/

namespace Kiln
namespace File

/-! ## Places of code points -/

/-- The places of the code points of a line from a column on. -/
def placesOfLine (file : File) (index column : Nat) : List Position :=
  (List.range' column ((file.line index).length - column)).map (Position.mk index)

/-- The places of the code points on the lines from one on. -/
def placesBelow (file : File) (index : Nat) : List Position :=
  (List.range' index (file.lineCount - index)).flatMap fun i => file.placesOfLine i 0

/-- The places of the code points from a position on. -/
def placesFrom (file : File) (p : Position) : List Position :=
  file.placesOfLine p.line p.column ++ file.placesBelow (p.line + 1)

/-- The places of the code points of a file, line by line. -/
def places (file : File) : List Position :=
  (List.range file.lineCount).flatMap fun index =>
    (List.range (file.line index).length).map (Position.mk index)

variable {file : File} {p : Position}

theorem placesOfLine_eq_nil {index column : Nat} (h : (file.line index).length ≤ column) :
    file.placesOfLine index column = [] := by
  rw [placesOfLine, Nat.sub_eq_zero_of_le h, List.range'_zero, List.map_nil]

theorem placesBelow_of_lt {index : Nat} (h : index < file.lineCount) :
    file.placesBelow index = file.placesFrom ⟨index, 0⟩ := by
  have hcount : file.lineCount - index = file.lineCount - (index + 1) + 1 := by omega
  rw [placesBelow, hcount, List.range'_succ, List.flatMap_cons, placesFrom, placesBelow]

theorem placesBelow_of_le {index : Nat} (h : file.lineCount ≤ index) :
    file.placesBelow index = [] := by
  rw [placesBelow, Nat.sub_eq_zero_of_le h, List.range'_zero, List.flatMap_nil]

theorem placesFrom_start (file : File) (hpos : 0 < file.lineCount) :
    file.placesFrom ⟨0, 0⟩ = file.places := by
  rw [← placesBelow_of_lt hpos, placesBelow, places, List.range_eq_range']
  simp only [placesOfLine, List.range_eq_range', Nat.sub_zero]

/-- The places are in the order of the file, and so each is there once. -/
theorem pairwise_places (file : File) : file.places.Pairwise (· < ·) := by
  rw [places, List.pairwise_flatMap]
  constructor
  · intro index _
    refine List.pairwise_map.2 (List.pairwise_lt_range.imp fun hlt => ?_)
    exact Or.inr ⟨rfl, hlt⟩
  · refine List.pairwise_lt_range.imp fun hlt => ?_
    simp only [List.mem_map]
    rintro _ ⟨column, -, rfl⟩ _ ⟨column', -, rfl⟩
    exact Or.inl hlt

theorem atLineEnd_iff : file.atLineEnd p = true ↔ (file.line p.line).length ≤ p.column :=
  decide_eq_true_iff

theorem charAt_eq_none_iff : file.charAt p = none ↔ file.atLineEnd p = true := by
  rw [charAt, Array.getElem?_eq_none_iff, atLineEnd_iff]
  rfl

theorem map_getElem?_range {α : Type} (as : Array α) :
    (List.range as.size).map (as[·]?) = as.toList.map some := by
  have h := map_some_extract as 0 as.size
  rw [Array.extract_size, Nat.min_self, Nat.sub_zero, ← List.range_eq_range'] at h
  exact h.symm

theorem filterMap_getElem?_range {α : Type} (as : Array α) :
    (List.range as.size).filterMap (as[·]?) = as.toList := by
  have h := congrArg (List.filterMap id) (map_getElem?_range as)
  simpa [List.filterMap_map] using h

/-- The code points at the places of a file are those of its lines. -/
theorem filterMap_charAt_places (file : File) :
    file.places.filterMap file.charAt = file.lines.toList.flatMap (·.chars.toList) := by
  have hline : ∀ index, ((List.range (file.line index).length).map (Position.mk index)).filterMap
      file.charAt = (file.line index).chars.toList := by
    intro index
    rw [List.filterMap_map]
    exact filterMap_getElem?_range (file.line index).chars
  have hlines : (List.range file.lineCount).map file.line = file.lines.toList := by
    calc (List.range file.lineCount).map file.line
        = ((List.range file.lines.size).map (file.lines[·]?)).map (·.getD default) := by
          rw [List.map_map]
          exact List.map_congr_left fun _ _ => Array.getD_eq_getD_getElem?
      _ = file.lines.toList := by
          rw [map_getElem?_range, List.map_map]
          exact List.map_id _
  rw [places, List.filterMap_flatMap, ← hlines, List.flatMap_map]
  simp only [hline]

/-! ## Steps -/

/-- From the end of a line the search for a line with a code point passes no code point. -/
theorem placesBelow_eq (file : File) (index : Nat) :
    file.placesBelow index =
      match file.findLine? (fun line => !line.chars.isEmpty) index with
      | some found => file.placesFrom ⟨found, 0⟩
      | none => [] := by
  fun_induction findLine? file (fun line => !line.chars.isEmpty) index with
  | case1 index hlt hfilled => exact placesBelow_of_lt hlt
  | case2 index hlt hfilled ih =>
      rw [placesBelow_of_lt hlt, placesFrom, ← ih, placesOfLine_eq_nil]
      · rfl
      · simp only [line_eq_getElem hlt, Line.length]
        simpa using hfilled
  | case3 index hge => exact placesBelow_of_le (Nat.le_of_not_lt hge)

theorem placesFrom_endPosition (file : File) : file.placesFrom file.endPosition = [] := by
  rw [placesFrom, endPosition, lineEnd, placesOfLine_eq_nil (Nat.le_refl _), placesBelow_of_le]
  · rfl
  · simp only [lineCount, lastIndex]
    omega

/-- A step from a code point goes past this one. -/
theorem placesFrom_of_not_atLineEnd (h : file.atLineEnd p = false) :
    file.placesFrom p = p :: file.placesFrom (file.step p) := by
  have hlt : p.column < (file.line p.line).length := by
    rw [← Nat.not_le, ← atLineEnd_iff, h]
    exact Bool.false_ne_true
  have hcount : (file.line p.line).length - p.column =
      (file.line p.line).length - (p.column + 1) + 1 := by omega
  rw [step, h, if_neg Bool.false_ne_true, placesFrom, placesOfLine, hcount, List.range'_succ]
  rfl

/-- A step from the end of a line goes past no code point. -/
theorem placesFrom_of_atLineEnd (h : file.atLineEnd p = true) :
    file.placesFrom p = file.placesFrom (file.step p) := by
  rw [placesFrom, placesOfLine_eq_nil (atLineEnd_iff.1 h), List.nil_append, placesBelow_eq, step,
    if_pos h]
  cases file.findLine? (fun line => !line.chars.isEmpty) (p.line + 1) with
  | some found => rfl
  | none => exact (placesFrom_endPosition file).symm

/-- A step that does not begin at the end of the file leaves less of it. -/
theorem left_step_lt (hp : file.Holds p) (h : file.atEnd p = false) :
    file.left (file.step p) < file.left p := by
  rw [step]
  split
  · next hline =>
      have hlast : p.line < file.lastIndex := by
        have hne : p.line ≠ file.lastIndex := by
          simpa [atEnd, hline] using h
        have hlt := hp.line_lt
        simp only [lineCount, lastIndex] at hlt hne ⊢
        omega
      split
      · next index hindex =>
          obtain ⟨hlt, hsize⟩ := lt_size_of_findLine? hindex
          exact left_lt_of_line_lt hlt (Nat.le_sub_one_of_lt hsize)
      · exact left_lt_of_line_lt hlast (Nat.le_refl _)
  · next hline =>
      exact left_lt_of_advance (Bool.eq_false_iff.2 hline) (Or.inl ⟨rfl, Nat.lt_succ_self _⟩)

theorem step_endPosition (file : File) : file.step file.endPosition = file.endPosition := by
  have hbelow : ¬file.endPosition.line + 1 < file.lines.size := by
    simp only [endPosition, lineEnd, lastIndex]
    omega
  have hend : file.atLineEnd file.endPosition = true := atLineEnd_of_rest (file.rest_lineEnd _)
  rw [step, if_pos hend, findLine?, dif_neg hbelow]

/-! ## Runs -/

theorem Holds.atEnd_iff (hp : file.Holds p) : file.atEnd p = true ↔ p = file.endPosition := by
  constructor
  · intro h
    obtain ⟨hline, hlast⟩ : file.atLineEnd p = true ∧ p.line = file.lastIndex := by
      simpa [atEnd] using h
    have hrest : file.rest p = [] := by
      rw [← List.length_eq_zero_iff, length_rest]
      exact Nat.sub_eq_zero_of_le (atLineEnd_iff.1 hline)
    exact hp.eq_endPosition hrest (Nat.not_lt.2 (Nat.le_of_eq hlast.symm))
  · rintro rfl
    exact file.atEnd_endPosition

/-- From every position of the file, stepping reaches the end, and on its way the places of the
code points from there on. -/
theorem exists_steps (hp : file.Holds p) :
    ∃ steps, file.step^[steps] p = file.endPosition ∧
      (∀ q ∈ List.iterate file.step p steps, file.atEnd q = false) ∧
      (List.iterate file.step p steps).filter (fun q => !file.atLineEnd q) = file.placesFrom p := by
  induction hleft : file.left p using Nat.strongRecOn generalizing p with
  | ind left ih =>
      subst hleft
      cases hend : file.atEnd p with
      | true =>
          have hp := hp.atEnd_iff.1 hend
          exact ⟨0, hp, List.forall_mem_nil _, hp ▸ (placesFrom_endPosition file).symm⟩
      | false =>
          obtain ⟨steps, hstop, hbefore, hplaces⟩ :=
            ih _ (left_step_lt hp hend) hp.onward_step.holds rfl
          refine ⟨steps + 1, hstop, List.forall_mem_cons.2 ⟨hend, hbefore⟩, ?_⟩
          rw [List.iterate, List.filter_cons, hplaces]
          cases hline : file.atLineEnd p with
          | true => exact (placesFrom_of_atLineEnd hline).symm
          | false => exact (placesFrom_of_not_atLineEnd hline).symm

/-! ## Looking ahead -/

theorem atLineEnd_right (h : file.atLineEnd p = true) (count : Nat) :
    file.atLineEnd (p.right count) = true := by
  rw [atLineEnd_iff] at h ⊢
  exact Nat.le_trans h (Nat.le_add_right _ _)

/-- Looking ahead shows what is seen after as many steps on the line. -/
theorem ahead_eq (file : File) (p : Position) (count : Nat) :
    let q := file.stepInLine^[count] p
    file.ahead p count = ⟨file.charAt q, file.atLineEnd q, file.atEnd q⟩ := by
  intro q
  induction count generalizing p with
  | zero => rfl
  | succ count ih =>
      cases hline : file.atLineEnd p with
      | false =>
          have hstep : file.stepInLine p = p.right 1 := by
            rw [stepInLine, hline, if_neg Bool.false_ne_true]
          have hq : q = file.stepInLine^[count] (p.right 1) := by
            rw [← hstep, ← Function.iterate_succ_apply]
          have hahead : file.ahead p (count + 1) = file.ahead (p.right 1) count := by
            have hcolumn : p.column + (count + 1) = p.column + 1 + count := by omega
            have hright : p.right (count + 1) = (p.right 1).right count :=
              congrArg (Position.mk p.line) hcolumn
            rw [ahead, ahead, hright]
          rw [hahead, hq]
          exact ih (p.right 1)
      | true =>
          -- no step leaves the end of a line, and nothing is ahead of it
          have hstep : file.stepInLine p = p := if_pos hline
          have hq : q = p := Function.iterate_fixed hstep (count + 1)
          have hright := atLineEnd_right hline (count + 1)
          rw [hq, ahead, charAt_eq_none_iff.2 hright, charAt_eq_none_iff.2 hline, atEnd, atEnd,
            hright, hline]
          rfl

/-- Stepping from the beginning of a file comes to the end of the file after finitely many steps
and stays there.  The positions before it that are not ends of lines are the places of the code
points of the file, each once and in order, so the code points that are seen are those of the
lines one after the other.  What lies ahead on a line is what is seen after steps on the line, as
far ahead as a word holds the column. -/
theorem step_visits_places (name text : String) :
    let file := File.ofText name text
    (∃ steps,
      (∀ n, file.atEnd (file.step^[n] ⟨0, 0⟩) = true ↔ steps ≤ n) ∧
      (∀ n, steps ≤ n → file.step^[n] ⟨0, 0⟩ = file.endPosition) ∧
      (List.iterate file.step ⟨0, 0⟩ steps).filter (fun p => !file.atLineEnd p) = file.places ∧
      file.places.Pairwise (· < ·) ∧
      (List.iterate file.step ⟨0, 0⟩ steps).filterMap file.charAt =
        file.lines.toList.flatMap (·.chars.toList)) ∧
    ∀ p, file.Holds p → ∀ count, p.column + count ≤ Guarded.maxWord →
      let q := file.stepInLine^[count] p
      Guarded.ahead file p count = .ok (file.ahead p count) ∧
        file.ahead p count = ⟨file.charAt q, file.atLineEnd q, file.atEnd q⟩ := by
  intro file
  have hpos : 0 < file.lineCount := (numbered_ofText name text).pos
  have hstart : file.Holds ⟨0, 0⟩ := holds_lineStart hpos
  obtain ⟨steps, hstop, hbefore, hplaces⟩ := exists_steps hstart
  rw [placesFrom_start file hpos] at hplaces
  have hstays : ∀ n, steps ≤ n → file.step^[n] ⟨0, 0⟩ = file.endPosition := by
    intro n hn
    obtain ⟨more, rfl⟩ := Nat.exists_eq_add_of_le' hn
    rw [Function.iterate_add_apply, hstop]
    exact Function.iterate_fixed (step_endPosition file) more
  have hseen : (List.iterate file.step ⟨0, 0⟩ steps).filterMap file.charAt =
      file.places.filterMap file.charAt := by
    rw [← hplaces, List.filterMap_filter]
    refine List.filterMap_congr fun p _ => ?_
    cases hline : file.atLineEnd p with
    | true => exact charAt_eq_none_iff.2 hline
    | false => rfl
  refine ⟨⟨steps, fun n => ⟨fun hend => ?_, fun hn => ?_⟩, hstays, hplaces, pairwise_places file,
    hseen.trans (filterMap_charAt_places file)⟩, fun p hp count hword =>
      ⟨Guarded.ahead_eq hp hword, file.ahead_eq p count⟩⟩
  · refine Nat.le_of_not_lt fun hlt => ?_
    have hbefore := hbefore (file.step^[n] ⟨0, 0⟩) (List.mem_iterate.2 ⟨n, hlt, rfl⟩)
    rw [hend] at hbefore
    cases hbefore
  · rw [hstays n hn]
    exact atEnd_endPosition file

/-- Empty lines at the beginning, in between and at the end are passed over, and behind the end of
a line nothing is seen. -/
theorem step_visits_places_emptyLines :
    let file := File.ofText "a" "\n\na\n\nbc\n\n"
    file.atEnd (file.step^[5] ⟨0, 0⟩) = false ∧
      (∀ n, 6 ≤ n → file.step^[n] ⟨0, 0⟩ = ⟨5, 0⟩) ∧
      (List.iterate file.step ⟨0, 0⟩ 6).filter (fun p => !file.atLineEnd p) =
        [⟨2, 0⟩, ⟨4, 0⟩, ⟨4, 1⟩] ∧
      (List.iterate file.step ⟨0, 0⟩ 6).filterMap file.charAt = ['a', 'b', 'c'] ∧
      file.Holds ⟨4, 1⟩ ∧ Guarded.ahead file ⟨4, 1⟩ 3 = .ok ⟨none, true, false⟩ := by
  intro file
  obtain ⟨⟨steps, hends, hstays, hplaces, -, hseen⟩, hahead⟩ :=
    step_visits_places "a" "\n\na\n\nbc\n\n"
  have hbefore : file.atEnd (file.step^[5] ⟨0, 0⟩) = false := by decide +kernel
  have hsteps : steps = 6 := by
    have hle := (hends 6).1 (by decide +kernel)
    have hgt := mt (hends 5).2 (Bool.eq_false_iff.1 hbefore)
    omega
  subst hsteps
  have hstop : file.endPosition = ⟨5, 0⟩ := by decide +kernel
  have hp : file.Holds ⟨4, 1⟩ := ⟨by decide +kernel, by decide +kernel⟩
  have hlines : file.lines.toList.flatMap (·.chars.toList) = ['a', 'b', 'c'] := by decide +kernel
  have hlast : file.stepInLine^[3] ⟨4, 1⟩ = ⟨4, 2⟩ := by decide +kernel
  have hnone : file.charAt ⟨4, 2⟩ = none := by decide +kernel
  have hline : file.atLineEnd ⟨4, 2⟩ = true := by decide +kernel
  have hfile : file.atEnd ⟨4, 2⟩ = false := by decide +kernel
  obtain ⟨hguarded, hseenAhead⟩ := hahead ⟨4, 1⟩ hp 3 (by decide)
  refine ⟨hbefore, fun n hn => (hstays n hn).trans hstop, hplaces.trans (by decide +kernel),
    hseen.trans hlines, hp, ?_⟩
  rw [hguarded, hseenAhead, hlast, hnone, hline, hfile]

end File
end Kiln
