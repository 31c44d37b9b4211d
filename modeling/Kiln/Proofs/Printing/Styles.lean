import Kiln.Report.Styled

/-!
# Output with and without styles

What is written in colours is what is written without them, with control sequences in
between.  `eraseStyles` deletes these again: an escape character, an opening bracket,
parameters and an `m`.  As long as no text that is written has an escape character of its own,
there remains what the diagnostics are printed as.
-/

namespace Kiln

/-! ## Erasing styles -/

/-- The character that begins a control sequence. -/
def escape : Char := '\x1b'

/-- Whether a character can stand among the parameters of a control sequence. -/
def isParameter (c : Char) : Bool := c.isDigit || c == ';' || c == ':'

/-- The length of the control sequence for a style that a text begins with. -/
def styleLength? : List Char → Option Nat
  | c :: d :: cs =>
    let count := (cs.takeWhile isParameter).length
    if c = escape ∧ d = '[' ∧ cs[count]? = some 'm' then some (count + 3) else none
  | _ => none

/-- A text without its control sequences for styles. -/
def eraseStyles : List Char → List Char
  | [] => []
  | c :: cs =>
    match styleLength? (c :: cs) with
    | some length => eraseStyles (cs.drop (length - 1))
    | none => c :: eraseStyles cs
termination_by cs => cs.length

theorem styleLength?_of_ne {c : Char} (h : c ≠ escape) (cs : List Char) :
    styleLength? (c :: cs) = none := by
  cases cs with
  | nil => rfl
  | cons d cs =>
      rw [styleLength?]
      exact if_neg fun hstyle => h hstyle.1

/-- A text without escape characters stays. -/
theorem eraseStyles_append {cs : List Char} (h : escape ∉ cs) (more : List Char) :
    eraseStyles (cs ++ more) = cs ++ eraseStyles more := by
  induction cs with
  | nil => rfl
  | cons c cs ih =>
      rw [List.mem_cons, not_or] at h
      rw [List.cons_append, eraseStyles, styleLength?_of_ne (Ne.symm h.1), ih h.2]
      rfl

/-- A control sequence for a style is erased. -/
theorem eraseStyles_sequence {parameters : List Char}
    (h : parameters.all isParameter = true) (more : List Char) :
    eraseStyles (escape :: '[' :: (parameters ++ 'm' :: more)) = eraseStyles more := by
  have hcount : ((parameters ++ 'm' :: more).takeWhile isParameter).length =
      parameters.length := by
    rw [List.takeWhile_append_of_pos (List.all_eq_true.1 h), List.takeWhile_cons_of_neg (by decide),
      List.append_nil]
  have hlength : styleLength? (escape :: '[' :: (parameters ++ 'm' :: more)) =
      some (parameters.length + 3) := by
    rw [styleLength?]
    simp only [hcount, List.getElem?_append_right, Nat.le_refl, Nat.sub_self,
      List.getElem?_cons_zero, and_self, if_true]
  rw [eraseStyles, hlength]
  simp

theorem eraseStyles_start (style : Style) (more : List Char) :
    eraseStyles (style.start.toList ++ more) = eraseStyles more := by
  cases style with
  | bold => exact @eraseStyles_sequence ['1'] rfl more
  | red => exact @eraseStyles_sequence ['1', ';', '3', '1'] rfl more
  | yellow => exact @eraseStyles_sequence ['1', ';', '3', '3'] rfl more
  | green => exact @eraseStyles_sequence ['1', ';', '3', '2'] rfl more
  | cyan => exact @eraseStyles_sequence ['1', ';', '3', '6'] rfl more

theorem eraseStyles_reset (more : List Char) :
    eraseStyles (Style.reset.toList ++ more) = eraseStyles more :=
  @eraseStyles_sequence ['0'] rfl more

/-! ## Segments -/

namespace Segment

theorem renderAll_nil (colored : Bool) : renderAll colored [] = "" := rfl

theorem renderAll_cons (colored : Bool) (s : Segment) (segments : List Segment) :
    renderAll colored (s :: segments) = s.render colored ++ renderAll colored segments := by
  rw [renderAll, List.map_cons, String.join_cons]
  rfl

theorem renderAll_append (colored : Bool) (segments more : List Segment) :
    renderAll colored (segments ++ more) =
      renderAll colored segments ++ renderAll colored more := by
  induction segments with
  | nil => rw [List.nil_append, renderAll_nil, String.empty_append]
  | cons s segments ih =>
      rw [List.cons_append, renderAll_cons, renderAll_cons, ih, String.append_assoc]

theorem render_uncolored (s : Segment) : s.render false = s.text := by
  cases h : s.style <;> simp [render, h]

/-- What is written without colours has an escape character if a segment has one. -/
theorem escape_not_mem_renderAll {segments : List Segment} :
    escape ∉ (renderAll false segments).toList ↔
      ∀ s ∈ segments, escape ∉ s.text.toList := by
  induction segments with
  | nil => simp [renderAll_nil]
  | cons s segments ih =>
      rw [renderAll_cons, render_uncolored, String.toList_append, List.mem_append, not_or, ih,
        List.forall_mem_cons]

/-- Erasing styles from segments that are written in colours, or not, leaves them as they are
written without. -/
theorem eraseStyles_renderAll {segments : List Segment} (colored : Bool)
    (h : ∀ s ∈ segments, escape ∉ s.text.toList) :
    eraseStyles (renderAll colored segments).toList = (renderAll false segments).toList := by
  induction segments with
  | nil => simp [renderAll_nil, eraseStyles]
  | cons s segments ih =>
      obtain ⟨hfirst, hrest⟩ := List.forall_mem_cons.1 h
      have hplain : eraseStyles (s.text ++ renderAll colored segments).toList =
          (s.text ++ renderAll false segments).toList := by
        rw [String.toList_append, eraseStyles_append hfirst, ih hrest, String.toList_append]
      rw [renderAll_cons, renderAll_cons, render_uncolored]
      cases hstyle : s.style with
      | none => rwa [render, hstyle]
      | some style =>
          cases colored with
          | false => rwa [render_uncolored]
          | true =>
              rw [render, hstyle]
              simp only [if_true, String.append_assoc, String.toList_append] at hplain ⊢
              rw [eraseStyles_start, eraseStyles_append hfirst, eraseStyles_reset, ih hrest]

end Segment

/-! ## Diagnostics -/

open Segment

variable [Display]

theorem Notice.renderAll_segments (n : Notice) : renderAll false n.segments = n.text := by
  rw [segments, text, renderAll_append]
  congr 1
  · rw [header]
    cases n.excerpt.position? <;>
      simp [renderAll_cons, renderAll_nil, render_uncolored, styled, plain, String.append_assoc]
  · rw [body]
    split
    · cases n.note with
      | none => rfl
      | some note =>
          have hrow : "  = " ++ "note" ++ ": " = "  = note: " := rfl
          simp only [renderAll_cons, renderAll_nil, render_uncolored, styled, plain,
            String.append_empty, ← hrow, String.append_assoc]
    · simp only [renderAll_cons, renderAll_nil, render_uncolored, plain, String.append_empty]

theorem Diagnostic.renderAll_segments (d : Diagnostic) :
    renderAll false d.segments = d.text := by
  rw [segments, text]
  induction d.chain with
  | nil => rfl
  | cons n chain ih =>
      rw [List.flatMap_cons, renderAll_append, n.renderAll_segments, ih, List.map_cons,
        String.join_cons]

theorem Diagnostic.renderAll_flatMap_segments (ds : List Diagnostic) :
    renderAll false (ds.flatMap segments) = String.join (ds.map text) := by
  induction ds with
  | nil => rfl
  | cons d ds ih =>
      rw [List.flatMap_cons, renderAll_append, d.renderAll_segments, ih, List.map_cons,
        String.join_cons]

end Kiln
