import Kiln.Proofs.CommandLine.Options
import Kiln.Proofs.Sessions.Calls

/-!
# Outcomes of runs

A run succeeds if it is asked for something that can be done and the file can be read, parsed and
checked as far as its command needs.  A command that succeeds logs nothing, and one that fails
reports nothing but logs one diagnostic: so a run writes to one of its two outputs at most, and
whether a diagnostic reaches the threshold never decides on its exit code.
-/

namespace Kiln

/-! ## Reading with a session -/

namespace SessionOver

variable {ι : Type} {s : SessionOver ι} {files : Files} {path : String}

theorem loadAndScan_ok {items : ι} (h : (files.read path).bind s.frontEnd.scan = .ok items) :
    s.loadAndScan files path = (some items, s) := by
  cases hread : files.read path with
  | error fault => rw [hread] at h; cases h
  | ok file =>
      rw [hread] at h
      simpa only [loadAndScan, load_ok hread] using scan_ok h

theorem loadAndScan_error {fault : Diagnostic}
    (h : (files.read path).bind s.frontEnd.scan = .error fault) :
    s.loadAndScan files path = (none, s.report fault) := by
  cases hread : files.read path with
  | error first =>
      rw [hread] at h
      cases h
      simp only [loadAndScan, load_error hread]
  | ok file =>
      rw [hread] at h
      simpa only [loadAndScan, load_ok hread] using scan_error h

end SessionOver

/-! ## Commands -/

namespace Command

variable {settings : Settings} {files : Files} {path output : String} {d : Diagnostic}

/-- The name of a command. -/
def name : Command → String
  | .lex => "lex"
  | .parse => "parse"
  | .check => "check"

theorem ofName_eq_ok_iff {text : String} {command : Command} :
    ofName text = .ok command ↔ text = command.name := by
  constructor
  · intro h
    unfold ofName at h
    split at h
    · next htext => cases h; exact htext
    · split at h
      · next htext => cases h; exact htext
      · split at h
        · next htext => cases h; exact htext
        · cases h
  · rintro rfl
    cases command <;> decide

/-- The report of a command, or the diagnostic by which it fails. -/
def outcome (command : Command) (settings : Settings) (files : Files) (path : String) :
    Except Diagnostic String :=
  match command with
  | .lex => ((files.read path).bind (File.items .builtin)).map (listing path)
  | .parse => ((files.read path).bind (File.parse .builtin)).map Document.outline
  | .check =>
    ((files.read path).bind (File.parse .builtin)).bind fun d =>
      match Call.checkFault? settings Check.defaults d with
      | none => .ok (approval path d)
      | some fault => .error fault

/-- A command that succeeds logs nothing. -/
theorem run_ok (command : Command) (h : command.outcome settings files path = .ok output) :
    ∃ s, command.run (.ofSettings settings) files path = (some output, s) ∧
      s.log = .empty settings.threshold := by
  let s : Session := .ofSettings settings
  cases command with
  | lex =>
      obtain ⟨items, hitems, rfl⟩ := map_eq_ok_iff.1 h
      have hscan : s.loadAndScan files path = (some items, s) := SessionOver.loadAndScan_ok hitems
      exact ⟨s, by rw [run, hscan]; rfl, rfl⟩
  | parse =>
      obtain ⟨d, hd, rfl⟩ := map_eq_ok_iff.1 h
      have hparse : s.loadAndParse files path = (some d, s.keep path d) :=
        SessionOver.loadAndParse_ok hd
      exact ⟨s.keep path d, by rw [run, hparse]; rfl, rfl⟩
  | check =>
      rw [outcome] at h
      cases hd : (files.read path).bind (File.parse .builtin) with
      | error fault => rw [hd] at h; cases h
      | ok d =>
          rw [hd, Except.bind] at h
          split at h
          · next hchecks =>
              cases h
              have hcompile : s.compile files path = (some d, s.keep path d) :=
                SessionOver.compile_ok hd hchecks
              exact ⟨s.keep path d, by rw [run, hcompile]; rfl, rfl⟩
          · cases h

/-- A command that fails logs its diagnostic. -/
theorem run_error (command : Command) (h : command.outcome settings files path = .error d) :
    ∃ s, command.run (.ofSettings settings) files path = (none, s) ∧
      s.log = ((Log.empty settings.threshold).add d).1 := by
  let s : Session := .ofSettings settings
  cases command with
  | lex =>
      have hscan : s.loadAndScan files path = (none, s.report d) :=
        SessionOver.loadAndScan_error (map_eq_error_iff.1 h)
      exact ⟨s.report d, by rw [run, hscan]; rfl, rfl⟩
  | parse =>
      have hparse : s.loadAndParse files path = (none, s.report d) :=
        SessionOver.loadAndParse_error (map_eq_error_iff.1 h)
      exact ⟨s.report d, by rw [run, hparse]; rfl, rfl⟩
  | check =>
      rw [outcome] at h
      cases hd : (files.read path).bind (File.parse .builtin) with
      | error fault =>
          rw [hd] at h
          cases h
          have hcompile : s.compile files path = (none, s.report d) :=
            SessionOver.compile_error hd
          exact ⟨s.report d, by rw [run, hcompile]; rfl, rfl⟩
      | ok document =>
          rw [hd, Except.bind] at h
          split at h
          · cases h
          · next hchecks =>
              cases h
              have hcompile : s.compile files path = (none, (s.keep path document).report d) :=
                SessionOver.compile_violation hd hchecks
              exact ⟨(s.keep path document).report d, by rw [run, hcompile]; rfl, rfl⟩

/-- A command that can be carried out: the file can be read, its items or its document as well,
and for a check no default check finds anything wrong, unless checks are off. -/
def Completes (command : Command) (runChecks : Bool) (files : Files) (path : String) : Prop :=
  ∃ octets, files path = .ok octets ∧
    match command with
    | .lex => ∃ items, (File.ofOctets path octets).items .builtin = .ok items
    | .parse => ∃ d, (File.ofOctets path octets).parse .builtin = .ok d
    | .check => ∃ d, (File.ofOctets path octets).parse .builtin = .ok d ∧
        (runChecks = false ∨ ∀ check ∈ Check.defaults, check.violation? d = none)

theorem exists_map_read_iff {α : Type} {read : File → Except Diagnostic α} {textOf : α → String} :
    (∃ output, ((files.read path).bind read).map textOf = .ok output) ↔
      ∃ octets, files path = .ok octets ∧ ∃ a, read (.ofOctets path octets) = .ok a := by
  constructor
  · rintro ⟨output, h⟩
    obtain ⟨a, ha, -⟩ := map_eq_ok_iff.1 h
    obtain ⟨octets, hoctets, hread⟩ := SessionOver.read_bind_eq_ok_iff.1 ha
    exact ⟨octets, hoctets, a, hread⟩
  · rintro ⟨octets, hoctets, a, hread⟩
    exact ⟨textOf a,
      map_eq_ok_iff.2 ⟨a, SessionOver.read_bind_eq_ok_iff.2 ⟨octets, hoctets, hread⟩, rfl⟩⟩

/-- A command gives its report if and only if it can be carried out. -/
theorem exists_outcome_ok_iff (command : Command) (settings : Settings) (files : Files)
    (path : String) :
    (∃ output, command.outcome settings files path = .ok output) ↔
      command.Completes settings.runChecks files path := by
  cases command with
  | lex => exact exists_map_read_iff
  | parse => exact exists_map_read_iff
  | check =>
      rw [outcome]
      constructor
      · rintro ⟨output, h⟩
        cases hd : (files.read path).bind (File.parse .builtin) with
        | error fault => rw [hd] at h; cases h
        | ok d =>
            rw [hd, Except.bind] at h
            split at h
            · next hchecks =>
                obtain ⟨octets, hoctets, hparse⟩ := SessionOver.read_bind_eq_ok_iff.1 hd
                exact ⟨octets, hoctets, d, hparse, SessionOver.checkFault?_eq_none_iff.1 hchecks⟩
            · cases h
      · rintro ⟨octets, hoctets, d, hparse, hchecks⟩
        have hd := SessionOver.read_bind_eq_ok_iff.2 ⟨octets, hoctets, hparse⟩
        rw [hd, Except.bind, SessionOver.checkFault?_eq_none_iff.2 hchecks]
        exact ⟨approval path d, rfl⟩

end Command

/-! ## Runs -/

namespace CommandLine

variable {color : Option String} {arguments : List String} {files : Files} {isTerminal : Bool}
  {p : Plan} {output : String} {d : Diagnostic}

section

variable [Display]

/-- The error output of a run that logged one diagnostic. -/
def faultText (color : ColorMode) (isTerminal : Bool) (d : Diagnostic) : String :=
  logText { Settings.initial with color } isTerminal ((Log.empty .error).add d).1

theorem execute_ok (h : p.command.outcome p.settings files p.path = .ok output) :
    execute p files isTerminal = ⟨0, output, ""⟩ := by
  obtain ⟨s, hrun, hlog⟩ := p.command.run_ok h
  rw [execute, hrun]
  dsimp only
  rw [hlog]
  rfl

theorem execute_error (h : p.command.outcome p.settings files p.path = .error d) :
    execute p files isTerminal = ⟨1, "", faultText p.settings.color isTerminal d⟩ := by
  obtain ⟨s, hrun, hlog⟩ := p.command.run_error h
  rw [execute, hrun]
  dsimp only
  rw [hlog]
  rfl

end

/-! ## Plans -/

/-- What the environment and the arguments ask for, if they ask for anything: the value of the
environment and all options are valid, and the other arguments are a command and a path. -/
structure Requests (color : Option String) (arguments : List String) (command : Command)
    (path : String) : Prop where
  color_valid : ∀ value ∈ color, ∃ mode : ColorMode, value = mode.value
  options_valid : ∀ argument ∈ arguments, Settings.isOption argument = true →
    Settings.ValidOption argument
  positional : arguments.filter (fun argument => !Settings.isOption argument) = [command.name, path]

theorem withColorVariable_eq_ok (h : ∀ value ∈ color, ∃ mode : ColorMode, value = mode.value) :
    ∃ settings, Settings.initial.withColorVariable color = .ok settings ∧
      settings.runChecks = true := by
  cases color with
  | none => exact ⟨Settings.initial, rfl, rfl⟩
  | some value =>
      obtain ⟨mode, rfl⟩ := h value rfl
      refine ⟨{ Settings.initial with color := mode }, ?_, rfl⟩
      rw [Settings.withColorVariable, ColorMode.ofValue_eq_ok_iff.2 rfl]
      rfl

theorem color_valid_of_eq_ok {settings : Settings}
    (h : Settings.initial.withColorVariable color = .ok settings) :
    ∀ value ∈ color, ∃ mode : ColorMode, value = mode.value := by
  rintro value rfl
  rw [Settings.withColorVariable] at h
  obtain ⟨mode, hmode, -⟩ := map_eq_ok_iff.1 h
  cases hvalue : ColorMode.ofValue value with
  | error reason => rw [hvalue] at hmode; cases hmode
  | ok mode => exact ⟨mode, ColorMode.ofValue_eq_ok_iff.1 hvalue⟩

/-- What is asked for is planned. -/
theorem Requests.plan_eq_ok {command : Command} {path : String}
    (h : Requests color arguments command path) :
    ∃ settings, plan color arguments = .ok ⟨settings, command, path⟩ ∧
      settings.runChecks = !arguments.contains "--no-check" := by
  obtain ⟨first, hfirst, hon⟩ := withColorVariable_eq_ok h.color_valid
  obtain ⟨settings, hsettings, hchecks⟩ := Settings.applyArguments_ok h.options_valid first
  refine ⟨settings, ?_, ?_⟩
  · rw [plan, hfirst]
    dsimp only
    rw [hsettings, h.positional]
    dsimp only
    rw [Command.ofName_eq_ok_iff.2 rfl]
  · rw [hchecks, hon, Bool.true_and]

/-- What is planned has been asked for. -/
theorem requests_of_plan (h : plan color arguments = .ok p) :
    Requests color arguments p.command p.path := by
  rw [plan] at h
  cases hfirst : Settings.initial.withColorVariable color with
  | error e => rw [hfirst] at h; cases h
  | ok first =>
      rw [hfirst] at h
      dsimp only at h
      split at h
      · cases h
      · next name path settings hresult =>
          -- two arguments have been given back, so these are all that are no options
          have hvalid := Settings.validOption_of_applyArguments hresult
          obtain ⟨changed, hchanged, -⟩ := Settings.applyArguments_ok hvalid first
          rw [hresult] at hchanged
          have hpositional := Except.ok.inj (Prod.mk.inj hchanged).1
          split at h
          · cases h
          · next command hcommand =>
              cases h
              rw [Command.ofName_eq_ok_iff.1 hcommand] at hpositional
              exact ⟨color_valid_of_eq_ok hfirst, hvalid, hpositional.symm⟩
      · cases h

/-- With other thresholds the same is planned, but for the threshold. -/
theorem plan_otherThreshold {arguments' : List String}
    (h : List.Forall₂ Settings.SameButThreshold arguments arguments') :
    ∃ t, plan color arguments' = (plan color arguments).map fun p =>
      { p with settings := { p.settings with threshold := t } } := by
  rw [plan, plan]
  cases Settings.initial.withColorVariable color with
  | error e => exact ⟨.error, rfl⟩
  | ok first =>
      dsimp only
      obtain ⟨t, ht⟩ := Settings.applyArguments_otherThreshold h first first.threshold
      refine ⟨t, ?_⟩
      have hfirst : ({ first with threshold := first.threshold } : Settings) = first := rfl
      rw [hfirst] at ht
      rw [ht]
      obtain ⟨result, settings⟩ := first.applyArguments arguments
      cases result with
      | error e => rfl
      | ok positional =>
          match positional with
          | [name, path] =>
              dsimp only
              cases Command.ofName name <;> rfl
          | [] | [_] | _ :: _ :: _ :: _ => rfl

section

variable [Display]

/-- The threshold has no effect on what is done. -/
theorem execute_otherThreshold (p : Plan) (t : Severity) (files : Files) (isTerminal : Bool) :
    execute { p with settings := { p.settings with threshold := t } } files isTerminal =
      execute p files isTerminal := by
  let other : Plan := { p with settings := { p.settings with threshold := t } }
  have hsame : other.command.outcome other.settings files other.path =
      p.command.outcome p.settings files p.path := rfl
  cases houtcome : p.command.outcome p.settings files p.path with
  | ok output => rw [execute_ok houtcome, execute_ok (hsame.trans houtcome)]
  | error d => rw [execute_error houtcome, execute_error (hsame.trans houtcome)]

/-! ## Exit codes and outputs -/

/-- The command that is asked for can be carried out on the file. -/
def Succeeds (color : Option String) (arguments : List String) (files : Files) : Prop :=
  ∃ command path, Requests color arguments command path ∧
    command.Completes (!arguments.contains "--no-check") files path

/-- A run either succeeds and writes nothing but a report, or it fails and writes nothing but an
explanation. -/
theorem run_cases (color : Option String) (arguments : List String) (files : Files)
    (isTerminal : Bool) :
    (Succeeds color arguments files ∧
      ∃ output, run color arguments files isTerminal = ⟨0, output, ""⟩) ∨
    ¬Succeeds color arguments files ∧
      ∃ text, run color arguments files isTerminal = ⟨1, "", text⟩ := by
  by_cases hsucceeds : Succeeds color arguments files
  · refine .inl ⟨hsucceeds, ?_⟩
    obtain ⟨command, path, hrequests, hcompletes⟩ := hsucceeds
    obtain ⟨settings, hplan, hchecks⟩ := hrequests.plan_eq_ok
    rw [← hchecks] at hcompletes
    obtain ⟨output, houtcome⟩ :=
      (command.exists_outcome_ok_iff settings files path).2 hcompletes
    refine ⟨output, ?_⟩
    rw [run, hplan]
    exact execute_ok houtcome
  · refine .inr ⟨hsucceeds, ?_⟩
    cases hplan : plan color arguments with
    | error refusal => exact ⟨refusalText refusal, by rw [run, hplan]⟩
    | ok p =>
        cases houtcome : p.command.outcome p.settings files p.path with
        | error d =>
            refine ⟨faultText p.settings.color isTerminal d, ?_⟩
            rw [run, hplan]
            exact execute_error houtcome
        | ok output =>
            -- what has been planned and carried out was asked for
            have hrequests := requests_of_plan hplan
            obtain ⟨settings, hplanned, hchecks⟩ := hrequests.plan_eq_ok
            have hsettings : p.settings = settings :=
              congrArg Plan.settings (Except.ok.inj (hplan.symm.trans hplanned))
            have hcompletes := (p.command.exists_outcome_ok_iff _ _ _).1 ⟨output, houtcome⟩
            rw [hsettings, hchecks] at hcompletes
            exact absurd ⟨p.command, p.path, hrequests, hcompletes⟩ hsucceeds

/-- A run succeeds if and only if the environment and all options are valid, the other arguments
are a command and a path, and the command can be carried out on the file.  If it succeeds it
writes nothing to its error output, and otherwise nothing to its output.  What is given for a
threshold has no effect. -/
theorem run_outcome (color : Option String) (arguments : List String) (files : Files)
    (isTerminal : Bool) :
    let result := run color arguments files isTerminal
    (result.code = 0 ↔ Succeeds color arguments files) ∧
    (result.code = 0 → result.stderr = "") ∧ (result.code ≠ 0 → result.stdout = "") ∧
    ∀ arguments', List.Forall₂ Settings.SameButThreshold arguments arguments' →
      run color arguments' files isTerminal = result := by
  intro result
  have hthreshold : ∀ arguments', List.Forall₂ Settings.SameButThreshold arguments arguments' →
      run color arguments' files isTerminal = result := by
    intro arguments' h
    obtain ⟨t, hplan⟩ := plan_otherThreshold h
    show run color arguments' files isTerminal = run color arguments files isTerminal
    rw [run, run, hplan]
    cases plan color arguments with
    | error refusal => rfl
    | ok p => exact execute_otherThreshold p t files isTerminal
  rcases run_cases color arguments files isTerminal with
    ⟨hsucceeds, output, hrun⟩ | ⟨hfails, text, hrun⟩
  · have hresult : result = ⟨0, output, ""⟩ := hrun
    refine ⟨?_, ?_, ?_, hthreshold⟩
    · rw [hresult]
      exact iff_of_true rfl hsucceeds
    · intro _
      rw [hresult]
    · intro hcode
      rw [hresult] at hcode
      exact absurd rfl hcode
  · have hresult : result = ⟨1, "", text⟩ := hrun
    refine ⟨?_, ?_, ?_, hthreshold⟩
    · rw [hresult]
      exact iff_of_false Nat.one_ne_zero hfails
    · intro hcode
      rw [hresult] at hcode
      exact absurd hcode Nat.one_ne_zero
    · intro _
      rw [hresult]

end

/-- A check of a file in which a function returns a value too many fails with every threshold,
and it succeeds if checks are off. -/
theorem run_outcome_noCheck :
    let files : Files := fun _ => .ok "fun f() { return 1 }".toUTF8.toList
    let failing := run none ["check", "a", "--threshold=fatal"] files false
    let passing := run none ["check", "a", "--no-check"] files false
    failing.code ≠ 0 ∧ failing.stdout = "" ∧ passing.code = 0 ∧ passing.stderr = "" ∧
      run none ["check", "a", "--threshold=note"] files false = failing := by
  intro files failing passing
  have hfailing : failing.code ≠ 0 := by decide +kernel
  have hpassing : passing.code = 0 := by decide +kernel
  obtain ⟨-, -, hstdout, hthreshold⟩ :=
    run_outcome none ["check", "a", "--threshold=fatal"] files false
  obtain ⟨-, hstderr, -⟩ := run_outcome none ["check", "a", "--no-check"] files false
  refine ⟨hfailing, hstdout hfailing, hpassing, hstderr hpassing, hthreshold _ ?_⟩
  exact .cons (.inl rfl) (.cons (.inl rfl) (.cons (.inr ⟨.fatal, .note, rfl, rfl⟩) .nil))

end CommandLine
end Kiln
