import Kiln.Proofs.Directives.LineEnds

/-!
# Forms of inclusions

What stands behind the name of an inclusion on its line has one of six forms (`PathForm`), and
each of them is read in its own way: one gives an inclusion, and each of the others a fault with
a code of its own.
-/

namespace Kiln

/-- What may stand behind the name of an inclusion, from the first character on that is not a
blank. -/
inductive PathForm where
  /-- No quote opens a path. -/
  | noOpener (after : List Char)
  /-- No quote closes the path. -/
  | unclosed (quote : PathQuote) (path : List Char)
  /-- The first quote that closes a path is not the one for the opening quote. -/
  | misclosed (quote : PathQuote) (path : List Char) (found : Char) (behind : List Char)
  /-- Nothing stands between the quotes. -/
  | empty (quote : PathQuote) (behind : List Char)
  /-- A path is followed by a text. -/
  | followed (quote : PathQuote) (path gap text tail : List Char)
  /-- A path is all there is. -/
  | complete (quote : PathQuote) (path behind : List Char)

/-- A path without any of the quotes that close one. -/
def IsPath (path : List Char) : Prop := '>' ∉ path ∧ '"' ∉ path

instance (path : List Char) : Decidable (IsPath path) :=
  inferInstanceAs (Decidable ('>' ∉ path ∧ '"' ∉ path))

namespace PathForm

/-- The characters of a form. -/
def chars : PathForm → List Char
  | .noOpener after => after
  | .unclosed quote path => quote.opener :: path
  | .misclosed quote path found behind => quote.opener :: (path ++ found :: behind)
  | .empty quote behind => quote.opener :: quote.closer :: behind
  | .followed quote path gap text tail =>
    quote.opener :: (path ++ quote.closer :: (gap ++ (text ++ tail)))
  | .complete quote path behind => quote.opener :: (path ++ quote.closer :: behind)

/-- What is asked of the parts of a form. -/
def Fits : PathForm → Prop
  | .noOpener after => ∀ c ∈ after.head?, isBlank c = false ∧ c ≠ '<' ∧ c ≠ '"'
  | .unclosed _ path => IsPath path
  | .misclosed quote path found _ =>
    IsPath path ∧ (found = '>' ∨ found = '"') ∧ found ≠ quote.closer
  | .empty _ _ => True
  | .followed _ path gap text tail => path ≠ [] ∧ IsPath path ∧ HasText gap text tail
  | .complete _ path behind => path ≠ [] ∧ IsPath path ∧ EndsLine behind

end PathForm

/-- How a form is read that stands at `start`.  A path that is all there is gives an inclusion
with the parts as they stand there, and reading stops on the line, behind all but a comment. -/
def PathForm.ReadsAs (file : File) (head : DirectiveHead) (start : Position)
    (found : Found Directive) : PathForm → Prop
  | .noOpener _ => found.Reports .missingPath (file.charExcerpt start) []
  | .unclosed _ path =>
    found.Reports .unclosedPath (file.pointAt (start.right (path.length + 1)))
      [file.stretch start 1]
  | .misclosed _ path _ _ =>
    found.Reports .mismatchedPathCloser (file.stretch (start.right (path.length + 1)) 1)
      [file.stretch start 1]
  | .empty _ _ =>
    found.Reports .emptyPath (.union [file.stretch start 1, file.stretch (start.right 1) 1]) []
  | .followed _ path gap text _ =>
    found.Reports .textAfterDirective
      (file.stretch (start.right (path.length + 2 + gap.length)) text.length) []
  | .complete quote path behind =>
    found.outcome = .ok (.inclusion
      { head := head
        quote := quote
        opener := ⟨quote.openerKind, quote.opener.toString, file.stretch start 1⟩
        path := ⟨.string, String.ofList path, file.stretch (start.right 1) path.length⟩
        closer := ⟨quote.closerKind, quote.closer.toString,
          file.stretch (start.right (path.length + 1)) 1⟩ }) ∧
      found.stop.line = start.line ∧ file.rest found.stop <:+ behind ∧
      (file.rest found.stop = [] ∨ commentMark <+: file.rest found.stop)

/-! ## Parts of a form -/

theorem PathQuote.ofOpener?_opener (quote : PathQuote) :
    PathQuote.ofOpener? quote.opener = some quote := by
  cases quote <;> rfl

theorem PathQuote.isBlank_opener (quote : PathQuote) : isBlank quote.opener = false := by
  cases quote <;> decide

theorem PathQuote.ofOpener?_eq_none_iff {c : Char} :
    PathQuote.ofOpener? c = none ↔ c ≠ '<' ∧ c ≠ '"' := by
  rw [ofOpener?]
  split
  · next h => simp [h]
  · next h =>
      split
      · next h' => simp [h']
      · next h' => simp [h, h']

theorem closesPath_iff {c : Char} : closesPath c = true ↔ c = '>' ∨ c = '"' := by
  simp [closesPath]

theorem PathQuote.closesPath_closer (quote : PathQuote) : closesPath quote.closer = true := by
  cases quote <;> rfl

theorem isPath_iff {path : List Char} :
    IsPath path ↔ ∀ c ∈ path, (!closesPath c) = true := by
  have hc : ∀ c, (!closesPath c) = true ↔ c ≠ '>' ∧ c ≠ '"' := by simp [closesPath]
  simp only [hc, forall_and, IsPath]
  exact and_congr ⟨fun h c hmem heq => h (heq ▸ hmem), fun h hmem => h _ hmem rfl⟩
    ⟨fun h c hmem heq => h (heq ▸ hmem), fun h hmem => h _ hmem rfl⟩

/-- What stands behind an opening quote. -/
theorem exists_form_of_opener (quote : PathQuote) (cs : List Char) :
    ∃ form : PathForm, quote.opener :: cs = form.chars ∧ form.Fits := by
  obtain ⟨path, more, rfl, -, hpath, hmore⟩ := exists_run (fun c => !closesPath c) cs
  have hpath := isPath_iff.2 hpath
  cases more with
  | nil => exact ⟨.unclosed quote path, by rw [List.append_nil, PathForm.chars], hpath⟩
  | cons found behind =>
      have hcloses := hmore found rfl
      rw [Bool.not_eq_false', closesPath_iff] at hcloses
      by_cases hfound : found = quote.closer
      · subst hfound
        by_cases hne : path = []
        · subst hne
          exact ⟨.empty quote behind, rfl, trivial⟩
        · rcases endsLine_or_exists_text behind with hends | ⟨gap, text, tail, rfl, htext⟩
          · exact ⟨.complete quote path behind, rfl, hne, hpath, hends⟩
          · exact ⟨.followed quote path gap text tail, rfl, hne, hpath, htext⟩
      · exact ⟨.misclosed quote path found behind, rfl, hpath, hcloses, hfound⟩

/-- Whatever is left of a line has one of the forms behind its blanks. -/
theorem exists_form (cs : List Char) :
    ∃ (blanks : List Char) (form : PathForm), cs = blanks ++ form.chars ∧
      (∀ c ∈ blanks, isBlank c = true) ∧ form.Fits := by
  obtain ⟨blanks, more, rfl, -, hblanks, hmore⟩ := exists_run isBlank cs
  cases more with
  | nil => exact ⟨blanks, .noOpener [], rfl, hblanks, fun c hc => by cases hc⟩
  | cons c more =>
      cases hquote : PathQuote.ofOpener? c with
      | none =>
          refine ⟨blanks, .noOpener (c :: more), rfl, hblanks, ?_⟩
          rintro d ⟨rfl⟩
          exact ⟨hmore c rfl, PathQuote.ofOpener?_eq_none_iff.1 hquote⟩
      | some quote =>
          rw [PathQuote.eq_of_ofOpener? hquote]
          obtain ⟨form, hform, hfits⟩ := exists_form_of_opener quote more
          exact ⟨blanks, form, by rw [hform], hblanks, hfits⟩

/-! ## Reading a form -/

namespace File

variable {file : File} {head : DirectiveHead} {p : Position} {quote : PathQuote}
  {blanks path behind more : List Char} {found : Char}

/-- Behind blanks an opening quote begins a path. -/
theorem inclusionAt_of_opener (hrest : file.rest p = blanks ++ quote.opener :: more)
    (hblanks : ∀ c ∈ blanks, isBlank c = true) :
    file.inclusionAt head p = file.pathAt head quote (p.right blanks.length) := by
  have hskip := skipBlanksInLine_of_gap hrest hblanks (by
    rintro c ⟨rfl⟩
    exact quote.isBlank_opener)
  rw [inclusionAt, hskip]
  simp only [charAt_of_rest (rest_right_of_rest hrest), PathQuote.ofOpener?_opener]

theorem readsAs_noOpener {after : List Char} (hrest : file.rest p = blanks ++ after)
    (hblanks : ∀ c ∈ blanks, isBlank c = true) (hfits : (PathForm.noOpener after).Fits) :
    (PathForm.noOpener after).ReadsAs file head (p.right blanks.length)
      (file.inclusionAt head p) := by
  have hskip := skipBlanksInLine_of_gap hrest hblanks fun c hc => (hfits c hc).1
  have hafter := rest_right_of_rest hrest
  rw [inclusionAt, hskip]
  cases after with
  | nil =>
      have hend := atLineEnd_of_rest hafter
      have hchar : file.charAt (p.right blanks.length) = none := by
        rw [← head?_rest, hafter, List.head?_nil]
      simp only [hchar]
      refine ⟨_, rfl, rfl, rfl, ?_, rfl⟩
      rw [charExcerpt, if_pos hend]
      rfl
  | cons c after =>
      have hnone := PathQuote.ofOpener?_eq_none_iff.2 (hfits c rfl).2
      simp only [charAt_of_rest hafter, hnone]
      exact ⟨_, rfl, rfl, rfl, rfl, rfl⟩

/-- Behind an opening quote a path goes on to the first quote that closes one. -/
theorem pathAt_of_rest (hrest : file.rest p = quote.opener :: (path ++ more))
    (hpath : IsPath path) (hmore : ∀ c ∈ more.head?, closesPath c = true) :
    (file.rest (p.right 1)).takeWhile (fun c => !closesPath c) = path ∧
      (p.right 1).right path.length = p.right (path.length + 1) ∧
      file.rest (p.right (path.length + 1)) = more := by
  have hstop : (p.right 1).right path.length = p.right (path.length + 1) := by
    rw [Position.right_right, Nat.add_comm]
  have hbehind := rest_right_one hrest
  refine ⟨?_, hstop, ?_⟩
  · rw [hbehind]
    exact takeWhile_of_head? (isPath_iff.1 hpath) fun c hc => by simp [hmore c hc]
  · rw [← hstop]
    exact rest_right_of_rest hbehind

theorem readsAs_unclosed (hrest : file.rest p = quote.opener :: path) (hpath : IsPath path) :
    (PathForm.unclosed quote path).ReadsAs file head p (file.pathAt head quote p) := by
  rw [← List.append_nil path] at hrest
  obtain ⟨htake, hstop, hmore⟩ := pathAt_of_rest hrest hpath (by simp)
  have hchar : file.charAt (p.right (path.length + 1)) = none := by
    rw [← head?_rest, hmore, List.head?_nil]
  rw [pathAt]
  simp only [htake, hstop, hchar]
  exact ⟨_, rfl, rfl, rfl, rfl, rfl⟩

theorem readsAs_misclosed (hrest : file.rest p = quote.opener :: (path ++ found :: behind))
    (hfits : (PathForm.misclosed quote path found behind).Fits) :
    (PathForm.misclosed quote path found behind).ReadsAs file head p
      (file.pathAt head quote p) := by
  obtain ⟨hpath, hcloses, hfound⟩ := hfits
  obtain ⟨htake, hstop, hmore⟩ := pathAt_of_rest hrest hpath (by
    rintro c ⟨rfl⟩
    exact closesPath_iff.2 hcloses)
  have hplace := charExcerpt_of_rest hmore
  rw [pathAt]
  simp only [htake, hstop, charAt_of_rest hmore, if_neg hfound]
  exact ⟨_, rfl, rfl, rfl, hplace, rfl⟩

theorem readsAs_empty (hrest : file.rest p = quote.opener :: quote.closer :: behind) :
    (PathForm.empty quote behind).ReadsAs file head p (file.pathAt head quote p) := by
  have hbehind := rest_right_one hrest
  have htake : (file.rest (p.right 1)).takeWhile (fun c => !closesPath c) = [] := by
    rw [hbehind]
    exact List.takeWhile_cons_of_neg (by simp [quote.closesPath_closer])
  have hchar : file.charAt ((p.right 1).right 0) = some quote.closer := charAt_of_rest hbehind
  rw [pathAt]
  simp only [htake, List.length_nil, hchar, if_true]
  exact ⟨_, rfl, rfl, rfl, rfl, rfl⟩

/-- A path in its quotes is read with what follows it. -/
theorem pathAt_of_path
    (hrest : file.rest p = quote.opener :: (path ++ quote.closer :: behind)) (hne : path ≠ [])
    (hpath : IsPath path) :
    file.pathAt head quote p = file.closeInclusion
      { head := head
        quote := quote
        opener := ⟨quote.openerKind, quote.opener.toString, file.stretch p 1⟩
        path := ⟨.string, String.ofList path, file.stretch (p.right 1) path.length⟩
        closer := ⟨quote.closerKind, quote.closer.toString,
          file.stretch (p.right (path.length + 1)) 1⟩ } (p.right (path.length + 2)) ∧
      file.rest (p.right (path.length + 2)) = behind := by
  obtain ⟨htake, hstop, hmore⟩ := pathAt_of_rest hrest hpath (by
    rintro c ⟨rfl⟩
    exact quote.closesPath_closer)
  have hlength : path.length ≠ 0 := by simpa using hne
  refine ⟨?_, rest_right_one hmore⟩
  rw [pathAt]
  simp only [htake, hstop, charAt_of_rest hmore, if_true, if_neg hlength, textAt_one hrest,
    textAt_one hmore, textAt_of_rest (rest_right_one hrest)]
  rfl

theorem readsAs_followed {gap text tail : List Char}
    (hrest : file.rest p = (PathForm.followed quote path gap text tail).chars)
    (hfits : (PathForm.followed quote path gap text tail).Fits) :
    (PathForm.followed quote path gap text tail).ReadsAs file head p
      (file.pathAt head quote p) := by
  obtain ⟨hne, hpath, htext⟩ := hfits
  obtain ⟨hread, hbehind⟩ := @pathAt_of_path file head p quote path _ hrest hne hpath
  obtain ⟨hskip, hcount⟩ := textBehind?_of_hasText hbehind htext
  rw [hread, closeInclusion, hskip]
  simp only [hcount]
  refine ⟨_, rfl, rfl, rfl, ?_, rfl⟩
  rw [Position.right_right]
  rfl

theorem readsAs_complete (hrest : file.rest p = (PathForm.complete quote path behind).chars)
    (hfits : (PathForm.complete quote path behind).Fits) :
    (PathForm.complete quote path behind).ReadsAs file head p (file.pathAt head quote p) := by
  obtain ⟨hne, hpath, hends⟩ := hfits
  obtain ⟨hread, hbehind⟩ := @pathAt_of_path file head p quote path _ hrest hne hpath
  have hnone := textBehind?_skipBlanksInLine_eq_none_iff.2 (hbehind.symm ▸ hends)
  rw [hread, closeInclusion]
  simp only [hnone]
  refine ⟨rfl, rfl, ?_, ?_⟩
  · rw [rest_skipBlanksInLine, hbehind]
    exact List.dropWhile_suffix _
  · rw [rest_skipBlanksInLine, hbehind]
    exact endsLine_iff.1 hends

/-- A form is read as it is meant to be. -/
theorem readsAs_inclusionAt {form : PathForm} (hrest : file.rest p = blanks ++ form.chars)
    (hblanks : ∀ c ∈ blanks, isBlank c = true) (hfits : form.Fits) :
    form.ReadsAs file head (p.right blanks.length) (file.inclusionAt head p) := by
  have hform := rest_right_of_rest hrest
  cases form with
  | noOpener after => exact readsAs_noOpener hrest hblanks hfits
  | unclosed quote path =>
      rw [inclusionAt_of_opener hrest hblanks]
      exact readsAs_unclosed hform hfits
  | misclosed quote path found behind =>
      rw [inclusionAt_of_opener hrest hblanks]
      exact readsAs_misclosed hform hfits
  | empty quote behind =>
      rw [inclusionAt_of_opener hrest hblanks]
      exact readsAs_empty hform
  | followed quote path gap text tail =>
      rw [inclusionAt_of_opener hrest hblanks]
      exact readsAs_followed hform hfits
  | complete quote path behind =>
      rw [inclusionAt_of_opener hrest hblanks]
      exact readsAs_complete hform hfits

/-- An inclusion is read where, behind blanks, a path stands between its quotes and the line
ends behind it.  What is left of any line has one of the forms behind its blanks, and is read as
its form says. -/
theorem inclusionAt_forms (file : File) (head : DirectiveHead) (p : Position) :
    ((∃ d, (file.inclusionAt head p).outcome = .ok d) ↔
      ∃ (blanks : List Char) (quote : PathQuote) (path behind : List Char),
        file.rest p = blanks ++ quote.opener :: (path ++ quote.closer :: behind) ∧
        (∀ c ∈ blanks, isBlank c = true) ∧ path ≠ [] ∧ '>' ∉ path ∧ '"' ∉ path ∧
        EndsLine behind) ∧
    (∃ (blanks : List Char) (form : PathForm), file.rest p = blanks ++ form.chars ∧
      (∀ c ∈ blanks, isBlank c = true) ∧ form.Fits) ∧
    ∀ (blanks : List Char) (form : PathForm), file.rest p = blanks ++ form.chars →
      (∀ c ∈ blanks, isBlank c = true) → form.Fits →
      form.ReadsAs file head (p.right blanks.length) (file.inclusionAt head p) := by
  refine ⟨⟨?_, ?_⟩, exists_form _, fun _ _ => readsAs_inclusionAt⟩
  · rintro ⟨d, hd⟩
    obtain ⟨blanks, form, hrest, hblanks, hfits⟩ := exists_form (file.rest p)
    have hreads := @readsAs_inclusionAt file head p blanks form hrest hblanks hfits
    cases form with
    | complete quote path behind =>
        obtain ⟨hne, ⟨hangle, hdouble⟩, hends⟩ := hfits
        exact ⟨blanks, quote, path, behind, hrest, hblanks, hne, hangle, hdouble, hends⟩
    | _ =>
        obtain ⟨e, he, -⟩ := hreads
        cases hd.symm.trans he
  · rintro ⟨blanks, quote, path, behind, hrest, hblanks, hne, hangle, hdouble, hends⟩
    exact ⟨_, (@readsAs_inclusionAt file head p blanks (.complete quote path behind) hrest hblanks
      ⟨hne, ⟨hangle, hdouble⟩, hends⟩).1⟩

/-- A text behind a path is reported without the blanks around it, with the comment in it. -/
theorem inclusionAt_forms_followed :
    let file := ofText "a" "#include  <é b>\tx // y "
    let head := file.headAt ⟨0, 0⟩ 7
    (file.inclusionAt head ⟨0, 8⟩).Reports .textAfterDirective (file.stretch ⟨0, 16⟩ 6) [] ∧
      ¬∃ d, (file.inclusionAt head ⟨0, 8⟩).outcome = .ok d := by
  intro file head
  have hrest : file.rest ⟨0, 8⟩ = [' ', ' '] ++
      (PathForm.followed .angle ['é', ' ', 'b'] ['\t'] "x // y".toList [' ']).chars := by
    decide +kernel
  have htext : HasText ['\t'] "x // y".toList [' '] :=
    ⟨List.all_eq_true.1 (by decide), ⟨⟨'x', by decide, by decide⟩, ⟨'y', by decide, by decide⟩⟩,
      by decide, List.all_eq_true.1 (by decide)⟩
  have hreports := (inclusionAt_forms file head ⟨0, 8⟩).2.2 _ _ hrest
    (List.all_eq_true.1 (by decide)) ⟨by decide, by decide +kernel, htext⟩
  refine ⟨hreports, ?_⟩
  rintro ⟨d, hd⟩
  obtain ⟨e, he, -⟩ := hreports
  cases hd.symm.trans he

end File
end Kiln
