import Kiln.Session

/-!
# Calls of a session

What a call does to a session is settled by the session's settings, front end and checks, and
by the call: whether it logs a diagnostic and which, and whether it keeps a document.  It does
not matter what was logged and kept before.
-/

namespace Kiln

/-- What can be asked of a session.  A call that reads a file comes with the file system as it
is at the time. -/
inductive Call where
  | load (files : Files) (path : String)
  | scan (file : File)
  | parse (file : File)
  | check (d : Document)
  | compile (files : Files) (path : String)
  | report (d : Diagnostic)

/-- What a session with items of type `ι` answers to a call. -/
inductive Answer (ι : Type) where
  | loaded (file : Option File)
  | scanned (items : Option ι)
  | parsed (d : Option Document)
  | checked (passed : Bool)
  | compiled (d : Option Document)
  | reported

/-- Whether an answer says that the call failed. -/
def Answer.failed {ι : Type} : Answer ι → Bool
  | .loaded file => file.isNone
  | .scanned items => items.isNone
  | .parsed d => d.isNone
  | .checked passed => !passed
  | .compiled d => d.isNone
  | .reported => false

/-- The diagnostic of an outcome that is a fault. -/
def fault? {α : Type} : Except Diagnostic α → Option Diagnostic
  | .ok _ => none
  | .error d => some d

namespace Call

variable {ι : Type}

/-- Whether a call only reports a diagnostic. -/
def isReport : Call → Bool
  | .report _ => true
  | _ => false

/-- The name and the document of a call that reads a document. -/
def kept? (frontEnd : FrontEnd ι) : Call → Option (String × Document)
  | .parse file => (frontEnd.parse file).toOption.map (file.name, ·)
  | .compile files path =>
    ((files.read path).bind frontEnd.parse).toOption.map (path, ·)
  | _ => none

/-- The report of the first violation, unless checks are off. -/
def checkFault? (settings : Settings) (checks : List Check) (d : Document) : Option Diagnostic :=
  if settings.runChecks then (Check.firstViolation? checks d).map Violation.report else none

/-- The diagnostic that a call reports, or the one by which it fails. -/
def logged? (settings : Settings) (frontEnd : FrontEnd ι) (checks : List Check) :
    Call → Option Diagnostic
  | .load files path => fault? (files.read path)
  | .scan file => fault? (frontEnd.scan file)
  | .parse file => fault? (frontEnd.parse file)
  | .check d => (Check.firstViolation? checks d).map Violation.report
  | .compile files path =>
    match (files.read path).bind frontEnd.parse with
    | .error d => some d
    | .ok d => checkFault? settings checks d
  | .report d => some d

end Call

namespace SessionOver

variable {ι : Type} {s : SessionOver ι} {file : File} {d : Document} {fault : Diagnostic}

/-- A session makes a call. -/
def perform (s : SessionOver ι) : Call → Answer ι × SessionOver ι
  | .load files path => Prod.map .loaded id (s.load files path)
  | .scan file => Prod.map .scanned id (s.scan file)
  | .parse file => Prod.map .parsed id (s.parse file)
  | .check d => Prod.map .checked id (s.check d)
  | .compile files path => Prod.map .compiled id (s.compile files path)
  | .report d => (.reported, s.report d)

/-! ## Parts of a call -/

theorem settings_keep (s : SessionOver ι) (name : String) (d : Document) :
    (s.keep name d).settings = s.settings := rfl

theorem load_ok {files : Files} {path : String} (h : files.read path = .ok file) :
    s.load files path = (some file, s) := by
  rw [load, h, settle]

theorem load_error {files : Files} {path : String} (h : files.read path = .error fault) :
    s.load files path = (none, s.report fault) := by
  rw [load, h, settle]

theorem scan_ok {items : ι} (h : s.frontEnd.scan file = .ok items) :
    s.scan file = (some items, s) := by
  rw [scan, h, settle]

theorem scan_error (h : s.frontEnd.scan file = .error fault) :
    s.scan file = (none, s.report fault) := by
  rw [scan, h, settle]

/-- A session reads the document that its front end reads. -/
theorem parse_ok (h : s.frontEnd.parse file = .ok d) :
    s.parse file = (some d, s.keep file.name d) := by
  rw [FrontEnd.parse] at h
  cases hscan : s.frontEnd.scan file with
  | error fault => rw [hscan] at h; cases h
  | ok items =>
      rw [hscan] at h
      change s.frontEnd.document file items = .ok d at h
      simp only [parse, scan_ok hscan, h, settle]

/-- A document that cannot be read is reported once. -/
theorem parse_error (h : s.frontEnd.parse file = .error fault) :
    s.parse file = (none, s.report fault) := by
  rw [FrontEnd.parse] at h
  cases hscan : s.frontEnd.scan file with
  | error first =>
      rw [hscan] at h
      cases h
      simp only [parse, scan_error hscan]
  | ok items =>
      rw [hscan] at h
      change s.frontEnd.document file items = .error fault at h
      simp only [parse, scan_ok hscan, h, settle]

theorem check_passed (h : Check.firstViolation? s.checks d = none) :
    s.check d = (true, s) := by
  rw [check, h]

theorem check_failed {violation : Violation}
    (h : Check.firstViolation? s.checks d = some violation) :
    s.check d = (false, s.report violation.report) := by
  rw [check, h]

/-! ## Compiling -/

theorem name_of_read {files : Files} {path : String} (h : files.read path = .ok file) :
    file.name = path := by
  rw [Files.read] at h
  split at h
  · cases h
    rfl
  · cases h

theorem loadAndParse_ok {files : Files} {path : String}
    (h : (files.read path).bind s.frontEnd.parse = .ok d) :
    s.loadAndParse files path = (some d, s.keep path d) := by
  cases hread : files.read path with
  | error fault => rw [hread] at h; cases h
  | ok file =>
      rw [hread] at h
      have hparse : s.parse file = (some d, s.keep file.name d) := parse_ok h
      rw [name_of_read hread] at hparse
      simpa only [loadAndParse, load_ok hread] using hparse

theorem loadAndParse_error {files : Files} {path : String}
    (h : (files.read path).bind s.frontEnd.parse = .error fault) :
    s.loadAndParse files path = (none, s.report fault) := by
  cases hread : files.read path with
  | error first =>
      rw [hread] at h
      cases h
      simp only [loadAndParse, load_error hread]
  | ok file =>
      rw [hread] at h
      simp only [loadAndParse, load_ok hread]
      exact parse_error h

theorem compile_error {files : Files} {path : String}
    (h : (files.read path).bind s.frontEnd.parse = .error fault) :
    s.compile files path = (none, s.report fault) := by
  simp only [compile, loadAndParse_error h]

/-- A document in which nothing is wrong is the result. -/
theorem compile_ok {files : Files} {path : String}
    (h : (files.read path).bind s.frontEnd.parse = .ok d)
    (hchecks : Call.checkFault? s.settings s.checks d = none) :
    s.compile files path = (some d, s.keep path d) := by
  simp only [compile, loadAndParse_ok h]
  rw [← settings_keep s path d] at hchecks
  by_cases hrun : (s.keep path d).settings.runChecks = true
  · rw [Call.checkFault?, if_pos hrun, Option.map_eq_none_iff] at hchecks
    have hpassed : (s.keep path d).check d = (true, s.keep path d) := check_passed hchecks
    rw [if_pos hrun, hpassed]
  · rw [if_neg hrun]

/-- A document in which something is wrong is kept, but it is not the result. -/
theorem compile_violation {files : Files} {path : String}
    (h : (files.read path).bind s.frontEnd.parse = .ok d)
    (hchecks : Call.checkFault? s.settings s.checks d = some fault) :
    s.compile files path = (none, (s.keep path d).report fault) := by
  simp only [compile, loadAndParse_ok h]
  rw [← settings_keep s path d] at hchecks
  by_cases hrun : (s.keep path d).settings.runChecks = true
  · rw [Call.checkFault?, if_pos hrun] at hchecks
    obtain ⟨violation, hviolation, rfl⟩ := Option.map_eq_some_iff.1 hchecks
    have hfailed : (s.keep path d).check d = (false, (s.keep path d).report violation.report) :=
      check_failed hviolation
    rw [if_pos hrun, hfailed]
  · rw [Call.checkFault?, if_neg hrun] at hchecks
    cases hchecks

theorem checkFault?_eq_none_iff {settings : Settings} {checks : List Check} :
    Call.checkFault? settings checks d = none ↔
      settings.runChecks = false ∨ ∀ check ∈ checks, check.violation? d = none := by
  rw [Call.checkFault?]
  by_cases hrun : settings.runChecks = true
  · rw [if_pos hrun, Option.map_eq_none_iff, Check.firstViolation?, List.findSome?_eq_none_iff,
      hrun]
    simp
  · rw [if_neg hrun]
    exact iff_of_true rfl (Or.inl (Bool.eq_false_iff.2 hrun))

theorem read_bind_eq_ok_iff {α : Type} {a : α} {files : Files} {path : String}
    {read : File → Except Diagnostic α} :
    (files.read path).bind read = .ok a ↔
      ∃ octets, files path = .ok octets ∧ read (.ofOctets path octets) = .ok a := by
  rw [Files.read]
  cases files path with
  | error failure =>
      constructor
      · exact fun h => nomatch h
      · rintro ⟨octets, h, -⟩
        cases h
  | ok octets =>
      constructor
      · exact fun h => ⟨octets, rfl, h⟩
      · rintro ⟨_, h, hread⟩
        cases h
        exact hread

/-- A document is the result if the file can be read, the document is what the front end reads
in it, and nothing is found wrong or looked for. -/
theorem compile_eq_some_iff (s : SessionOver ι) (files : Files) (path : String) (d : Document) :
    (s.compile files path).1 = some d ↔
      (∃ octets, files path = .ok octets ∧ s.frontEnd.parse (.ofOctets path octets) = .ok d) ∧
        (s.settings.runChecks = false ∨ ∀ check ∈ s.checks, check.violation? d = none) := by
  rw [← read_bind_eq_ok_iff, ← checkFault?_eq_none_iff]
  constructor
  · intro h
    cases hread : (files.read path).bind s.frontEnd.parse with
    | error fault =>
        rw [compile_error hread] at h
        cases h
    | ok found =>
        cases hchecks : Call.checkFault? s.settings s.checks found with
        | none =>
            rw [compile_ok hread hchecks] at h
            cases h
            exact ⟨rfl, hchecks⟩
        | some fault =>
            rw [compile_violation hread hchecks] at h
            cases h
  · rintro ⟨hread, hchecks⟩
    rw [compile_ok hread hchecks]

/-! ## What a call does -/

/-- A session that has kept a document and logged a diagnostic, if there are any. -/
def after (s : SessionOver ι) (kept : Option (String × Document)) (logged : Option Diagnostic) :
    SessionOver ι :=
  { s with
    cache := kept.elim s.cache fun entry => s.cache.insert entry.1 entry.2
    log := logged.elim s.log fun d => (s.log.add d).1 }

/-- A call keeps the document that it reads and logs one diagnostic if it fails, and it does
nothing else to the session. -/
theorem perform_spec (s : SessionOver ι) (call : Call) :
    (s.perform call).2 =
        s.after (call.kept? s.frontEnd) (call.logged? s.settings s.frontEnd s.checks) ∧
      (call.logged? s.settings s.frontEnd s.checks).isSome =
        ((s.perform call).1.failed || call.isReport) := by
  cases call with
  | load files path =>
      rw [perform, Call.logged?]
      cases h : files.read path with
      | ok file =>
          rw [load_ok h]
          exact ⟨rfl, rfl⟩
      | error fault =>
          rw [load_error h]
          exact ⟨rfl, rfl⟩
  | scan file =>
      rw [perform, Call.logged?]
      cases h : s.frontEnd.scan file with
      | ok items =>
          rw [scan_ok h]
          exact ⟨rfl, rfl⟩
      | error fault =>
          rw [scan_error h]
          exact ⟨rfl, rfl⟩
  | parse file =>
      rw [perform, Call.logged?, Call.kept?]
      cases h : s.frontEnd.parse file with
      | ok d =>
          rw [parse_ok h]
          exact ⟨rfl, rfl⟩
      | error fault =>
          rw [parse_error h]
          exact ⟨rfl, rfl⟩
  | check d =>
      rw [perform, Call.logged?]
      cases h : Check.firstViolation? s.checks d with
      | none =>
          rw [check_passed h]
          exact ⟨rfl, rfl⟩
      | some violation =>
          rw [check_failed h]
          exact ⟨rfl, rfl⟩
  | compile files path =>
      rw [perform, Call.logged?, Call.kept?]
      cases h : (files.read path).bind s.frontEnd.parse with
      | error fault =>
          rw [compile_error h]
          exact ⟨rfl, rfl⟩
      | ok d =>
          dsimp only
          cases hchecks : Call.checkFault? s.settings s.checks d with
          | none =>
              rw [compile_ok h hchecks]
              exact ⟨rfl, rfl⟩
          | some fault =>
              rw [compile_violation h hchecks]
              exact ⟨rfl, rfl⟩
  | report d => exact ⟨rfl, rfl⟩

end SessionOver
end Kiln
