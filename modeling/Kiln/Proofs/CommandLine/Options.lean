import Kiln.CommandLine
import Mathlib.Data.List.Forall2

/-!
# Options

The valid options are those for colours and for the threshold with one of their values, and the
one that turns the checks off.  If all options are valid, the other arguments are left as they
stand.  Another threshold changes nothing but the threshold of the settings.
-/

namespace Kiln

/-- The value of an option that asks for a mode. -/
def ColorMode.value : ColorMode → String
  | .auto => "auto"
  | .always => "always"
  | .never => "never"

theorem ColorMode.ofValue_eq_ok_iff {text : String} {mode : ColorMode} :
    ofValue text = .ok mode ↔ text = mode.value := by
  constructor
  · intro h
    unfold ofValue at h
    split at h
    · next htext => cases h; exact htext
    · split at h
      · next htext => cases h; exact htext
      · split at h
        · next htext => cases h; exact htext
        · cases h
  · rintro rfl
    cases mode <;> decide

theorem Severity.ofName_eq_ok_iff {text : String} {severity : Severity} :
    ofName text = .ok severity ↔ text = severity.name := by
  constructor
  · intro h
    unfold ofName at h
    split at h
    · next hfound =>
        cases h
        have hname := List.find?_some hfound
        exact (eq_of_beq hname).symm
    · cases h
  · rintro rfl
    cases severity <;> decide

namespace Settings

variable {s changed : Settings} {argument : String} {arguments positional : List String}

theorem valueAfter?_eq_some_iff {start value : String} :
    valueAfter? start argument = some value ↔ argument = start ++ value := by
  rw [valueAfter?]
  constructor
  · intro h
    split at h
    · next hprefix =>
        obtain ⟨rest, hrest⟩ := List.isPrefixOf_iff_prefix.1 hprefix
        rw [← hrest, List.drop_left, Option.some.injEq] at h
        rw [← String.toList_inj, String.toList_append, ← h, String.toList_ofList, hrest]
    · cases h
  · rintro rfl
    have hprefix : start.toList.isPrefixOf (start ++ value).toList = true := by
      rw [String.toList_append]
      exact List.isPrefixOf_iff_prefix.2 (List.prefix_append _ _)
    rw [if_pos hprefix, String.toList_append, List.drop_left, String.ofList_toList]

/-! ## Single options -/

/-- The options that are taken into account. -/
inductive ValidOption : String → Prop where
  | color (mode : ColorMode) : ValidOption ("--color=" ++ mode.value)
  | threshold (severity : Severity) : ValidOption ("--threshold=" ++ severity.name)
  | noCheck : ValidOption "--no-check"

theorem applyOption_color (s : Settings) (mode : ColorMode) :
    s.applyOption ("--color=" ++ mode.value) = .ok { s with color := mode } := by
  have hvalue := valueAfter?_eq_some_iff.2 (Eq.refl ("--color=" ++ mode.value))
  rw [applyOption, hvalue]
  dsimp only
  rw [ColorMode.ofValue_eq_ok_iff.2 rfl]
  rfl

theorem valueAfter?_color_threshold (value : String) :
    valueAfter? "--color=" ("--threshold=" ++ value) = none := by
  rw [valueAfter?, String.toList_append]
  exact if_neg Bool.false_ne_true

theorem applyOption_threshold (s : Settings) (severity : Severity) :
    s.applyOption ("--threshold=" ++ severity.name) = .ok { s with threshold := severity } := by
  have hvalue := valueAfter?_eq_some_iff.2 (Eq.refl ("--threshold=" ++ severity.name))
  rw [applyOption, valueAfter?_color_threshold, hvalue]
  dsimp only
  rw [Severity.ofName_eq_ok_iff.2 rfl]
  rfl

theorem applyOption_noCheck (s : Settings) :
    s.applyOption "--no-check" = .ok { s with runChecks := false } := by
  have hcolor : valueAfter? "--color=" "--no-check" = none := by decide
  have hthreshold : valueAfter? "--threshold=" "--no-check" = none := by decide
  rw [applyOption, hcolor, hthreshold]
  exact if_pos rfl

/-- A valid option is taken into account, and only the one for it turns the checks off. -/
theorem ValidOption.applyOption_eq_ok (h : ValidOption argument) (s : Settings) :
    ∃ changed, s.applyOption argument = .ok changed ∧
      changed.runChecks = (s.runChecks && !("--no-check" == argument)) := by
  cases h with
  | color mode =>
      refine ⟨_, s.applyOption_color mode, ?_⟩
      cases mode <;> exact (Bool.and_true _).symm
  | threshold severity =>
      refine ⟨_, s.applyOption_threshold severity, ?_⟩
      cases severity <;> exact (Bool.and_true _).symm
  | noCheck => exact ⟨_, s.applyOption_noCheck, (Bool.and_false _).symm⟩

/-- Only valid options are. -/
theorem validOption_of_applyOption (h : s.applyOption argument = .ok changed) :
    ValidOption argument := by
  unfold applyOption readValue at h
  cases hcolor : valueAfter? "--color=" argument with
  | some value =>
      rw [hcolor] at h
      cases hmode : ColorMode.ofValue value with
      | error reason => simp [hmode, Except.map, Except.mapError] at h
      | ok mode =>
          rw [valueAfter?_eq_some_iff.1 hcolor, ColorMode.ofValue_eq_ok_iff.1 hmode]
          exact .color mode
  | none =>
      cases hthreshold : valueAfter? "--threshold=" argument with
      | some value =>
          rw [hcolor, hthreshold] at h
          cases hseverity : Severity.ofName value with
          | error reason => simp [hseverity, Except.map, Except.mapError] at h
          | ok severity =>
              rw [valueAfter?_eq_some_iff.1 hthreshold, Severity.ofName_eq_ok_iff.1 hseverity]
              exact .threshold severity
      | none =>
          rw [hcolor, hthreshold] at h
          dsimp only at h
          split at h
          · next hargument => exact hargument ▸ .noCheck
          · cases h

/-! ## Arguments -/

theorem applyArguments_ok
    (h : ∀ argument ∈ arguments, isOption argument = true → ValidOption argument)
    (s : Settings) :
    ∃ changed, s.applyArguments arguments =
        (.ok (arguments.filter fun argument => !isOption argument), changed) ∧
      changed.runChecks = (s.runChecks && !arguments.contains "--no-check") := by
  induction arguments generalizing s with
  | nil => exact ⟨s, rfl, (Bool.and_true _).symm⟩
  | cons argument arguments ih =>
      obtain ⟨hargument, harguments⟩ := List.forall_mem_cons.1 h
      rw [applyArguments, List.contains_cons, Bool.not_or, ← Bool.and_assoc]
      by_cases hoption : isOption argument = true
      · obtain ⟨changed, hchanged, hchecks⟩ := (hargument hoption).applyOption_eq_ok s
        obtain ⟨after, hafter, hrun⟩ := ih harguments changed
        refine ⟨after, ?_, hchecks ▸ hrun⟩
        rw [if_pos hoption, hchanged, List.filter_cons_of_neg (by simp [hoption])]
        exact hafter
      · obtain ⟨after, hafter, hrun⟩ := ih harguments s
        have hother : ("--no-check" == argument) = false := by
          rw [beq_eq_false_iff_ne]
          rintro rfl
          exact hoption (by decide)
        refine ⟨after, ?_, ?_⟩
        · rw [if_neg hoption, hafter, List.filter_cons_of_pos (by simp [hoption])]
          rfl
        · rw [hrun, hother, Bool.not_false, Bool.and_true]

/-- Arguments are only given back if all options among them are valid. -/
theorem validOption_of_applyArguments (h : s.applyArguments arguments = (.ok positional, changed)) :
    ∀ argument ∈ arguments, isOption argument = true → ValidOption argument := by
  induction arguments generalizing s positional changed with
  | nil => exact List.forall_mem_nil _
  | cons argument arguments ih =>
      rw [applyArguments] at h
      by_cases hoption : isOption argument = true
      · rw [if_pos hoption] at h
        cases hresult : s.applyOption argument with
        | error e => rw [hresult] at h; cases h
        | ok next =>
            rw [hresult] at h
            exact List.forall_mem_cons.2 ⟨fun _ => validOption_of_applyOption hresult, ih h⟩
      · rw [if_neg hoption] at h
        obtain ⟨rest, hrest, -⟩ := map_eq_ok_iff.1 (Prod.mk.inj h).1
        have hresult : s.applyArguments arguments = (.ok rest, (s.applyArguments arguments).2) :=
          Prod.ext hrest rfl
        exact List.forall_mem_cons.2 ⟨fun hargument => absurd hargument hoption, ih hresult⟩

/-! ## Other thresholds -/

/-- Two arguments that are the same, or both set the threshold. -/
def SameButThreshold (argument argument' : String) : Prop :=
  argument = argument' ∨ ∃ severity severity' : Severity,
    argument = "--threshold=" ++ severity.name ∧ argument' = "--threshold=" ++ severity'.name

theorem applyOption_otherThreshold (s : Settings) (t : Severity) (argument : String) :
    ∃ t', ({ s with threshold := t } : Settings).applyOption argument =
      (s.applyOption argument).map fun changed => { changed with threshold := t' } := by
  unfold applyOption readValue
  cases valueAfter? "--color=" argument with
  | some value =>
      refine ⟨t, ?_⟩
      cases hmode : ColorMode.ofValue value <;> simp [hmode, Except.map, Except.mapError]
  | none =>
      cases valueAfter? "--threshold=" argument with
      | some value =>
          cases hseverity : Severity.ofName value with
          | error reason => exact ⟨t, by simp [hseverity, Except.map, Except.mapError]⟩
          -- the option settles the threshold, whatever it was before
          | ok severity => exact ⟨severity, by simp [hseverity, Except.map, Except.mapError]⟩
      | none =>
          refine ⟨t, ?_⟩
          dsimp only
          split <;> rfl

theorem isOption_threshold (severity : Severity) :
    isOption ("--threshold=" ++ severity.name) = true := by
  cases severity <;> decide

/-- With other thresholds the same arguments are given back, or the same option is refused; and
the settings are the same but for the threshold. -/
theorem applyArguments_otherThreshold {arguments' : List String}
    (h : List.Forall₂ SameButThreshold arguments arguments') (s : Settings) (t : Severity) :
    ∃ t', ({ s with threshold := t } : Settings).applyArguments arguments' =
      ((s.applyArguments arguments).1, { (s.applyArguments arguments).2 with threshold := t' }) := by
  induction h generalizing s t with
  | nil => exact ⟨t, rfl⟩
  | @cons argument argument' arguments arguments' hargument _ ih =>
      rw [applyArguments, applyArguments]
      rcases hargument with rfl | ⟨severity, severity', rfl, rfl⟩
      · by_cases hoption : isOption argument = true
        · obtain ⟨t', ht'⟩ := applyOption_otherThreshold s t argument
          rw [if_pos hoption, if_pos hoption, ht']
          cases s.applyOption argument with
          | error e => exact ⟨t, rfl⟩
          | ok changed => exact ih changed t'
        · obtain ⟨t', ht'⟩ := ih s t
          rw [if_neg hoption, if_neg hoption, ht']
          exact ⟨t', rfl⟩
      · rw [if_pos (isOption_threshold severity), if_pos (isOption_threshold severity'),
          applyOption_threshold, applyOption_threshold]
        exact ih { s with threshold := severity } severity'

end Settings
end Kiln
