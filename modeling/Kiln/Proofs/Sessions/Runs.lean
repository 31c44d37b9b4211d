import Kiln.Proofs.Sessions.Calls
import Mathlib.Data.List.Forall2

/-!
# Runs of a session

A session that has made any calls keeps of each file name the last document that was read under
it, and has logged one diagnostic for each call that failed, besides those that it was told to
report.  How it answers does not depend on the calls before.
-/

namespace Kiln

namespace SessionOver

variable {ι : Type}

/-- A session makes calls one after the other. -/
def performAll (s : SessionOver ι) : List Call → List (Answer ι) × SessionOver ι
  | [] => ([], s)
  | call :: calls =>
    let (answer, s) := s.perform call
    let (answers, s) := s.performAll calls
    (answer :: answers, s)

/-! ## The session after a run -/

/-- A session after calls of which each may have kept and logged something. -/
def afterAll (s : SessionOver ι) (kept : Call → Option (String × Document))
    (logged : Call → Option Diagnostic) (calls : List Call) : SessionOver ι :=
  calls.foldl (fun s call => s.after (kept call) (logged call)) s

/-- A run leaves the settings, the front end and the checks as they are. -/
theorem tools_afterAll (s : SessionOver ι) (kept : Call → Option (String × Document))
    (logged : Call → Option Diagnostic) (calls : List Call) :
    (s.afterAll kept logged calls).settings = s.settings ∧
      (s.afterAll kept logged calls).frontEnd = s.frontEnd ∧
      (s.afterAll kept logged calls).checks = s.checks := by
  induction calls generalizing s with
  | nil => exact ⟨rfl, rfl, rfl⟩
  | cons call calls ih => exact ih (s.after (kept call) (logged call))

/-- What a run does is settled by the settings, the front end and the checks with which it
starts. -/
theorem performAll_snd (s : SessionOver ι) (calls : List Call) :
    (s.performAll calls).2 =
      s.afterAll (Call.kept? s.frontEnd) (Call.logged? s.settings s.frontEnd s.checks) calls := by
  induction calls generalizing s with
  | nil => rfl
  | cons call calls ih =>
      -- a call changes neither settings nor front end nor checks
      rw [performAll, afterAll, List.foldl_cons, ih, (s.perform_spec call).1]
      rfl

section

variable (kept : Call → Option (String × Document)) (logged : Call → Option Diagnostic)
  (calls : List Call) (s : SessionOver ι)

theorem find?_afterAll (name : String) :
    (s.afterAll kept logged calls).cache.find? name =
      ((calls.filterMap kept).reverse.lookup name).or (s.cache.find? name) := by
  induction calls generalizing s with
  | nil => rfl
  | cons call calls ih =>
      rw [afterAll, List.foldl_cons, ← afterAll, ih]
      cases hkept : kept call with
      | none =>
          rw [List.filterMap_cons_none hkept]
          rfl
      | some entry =>
          have hinsert : (s.after (some entry) (logged call)).cache.find? name =
              ([entry].lookup name).or (s.cache.find? name) := by
            rw [after, Option.elim_some, NameTable.find?_insert, List.lookup_cons]
            by_cases hname : entry.1 = name
            · rw [if_pos hname, beq_iff_eq.2 hname.symm]
              rfl
            · rw [if_neg hname, beq_false_of_ne (Ne.symm hname)]
              rfl
          rw [List.filterMap_cons_some hkept, List.reverse_cons, List.lookup_append,
            Option.or_assoc, hinsert]

theorem ordered_afterAll (h : s.cache.Ordered) : (s.afterAll kept logged calls).cache.Ordered := by
  induction calls generalizing s with
  | nil => exact h
  | cons call calls ih =>
      rw [afterAll, List.foldl_cons, ← afterAll]
      apply ih
      cases hkept : kept call with
      | none => exact h
      | some entry => exact h.insert entry.1 entry.2

theorem entries_afterAll :
    (s.afterAll kept logged calls).log.entries =
      s.log.entries ++ calls.filterMap logged := by
  induction calls generalizing s with
  | nil => exact (List.append_nil _).symm
  | cons call calls ih =>
      rw [afterAll, List.foldl_cons, ← afterAll, ih]
      cases hlogged : logged call with
      | none =>
          rw [List.filterMap_cons_none hlogged]
          rfl
      | some d =>
          rw [List.filterMap_cons_some hlogged, after, Option.elim_some, Log.add,
            List.append_assoc, List.singleton_append]

end

/-! ## The answers of a run -/

/-- A call that is no report is logged if the answer is that it failed. -/
theorem forall₂_performAll (s : SessionOver ι) (calls : List Call) :
    List.Forall₂ (fun call answer =>
        (call.logged? s.settings s.frontEnd s.checks).isSome =
          (answer.failed || call.isReport)) calls (s.performAll calls).1 := by
  induction calls generalizing s with
  | nil => exact List.Forall₂.nil
  | cons call calls ih =>
      obtain ⟨hstate, hanswer⟩ := s.perform_spec call
      refine List.Forall₂.cons hanswer ?_
      change List.Forall₂ _ calls ((s.perform call).2.performAll calls).1
      rw [hstate]
      exact ih (s.after (call.kept? s.frontEnd) (call.logged? s.settings s.frontEnd s.checks))

/-- After any calls a new session keeps under each name the last document that was read under
it, and no other names; it has logged what it was told to report and one diagnostic for each
call that failed, in the order of the calls; and it compiles a file if the file can be read, its
document can be read, and nothing is found wrong or looked for. -/
theorem performAll_fresh (settings : Settings) (frontEnd : FrontEnd ι) (checks : List Check)
    (calls : List Call) :
    let run := (fresh settings frontEnd checks).performAll calls
    let documents := calls.filterMap (Call.kept? frontEnd)
    ((∀ name, run.2.cache.find? name = documents.reverse.lookup name) ∧
      (∀ name, name ∈ run.2.cache.names ↔ ∃ d, (name, d) ∈ documents) ∧
      run.2.cache.names.Nodup) ∧
    (run.2.log.entries = calls.filterMap (Call.logged? settings frontEnd checks) ∧
      List.Forall₂ (fun call answer =>
        (call.logged? settings frontEnd checks).isSome = (answer.failed || call.isReport))
        calls run.1) ∧
    ∀ files path d, (run.2.compile files path).1 = some d ↔
      (∃ octets, files path = .ok octets ∧ frontEnd.parse (.ofOctets path octets) = .ok d) ∧
        (settings.runChecks = false ∨ ∀ check ∈ checks, check.violation? d = none) := by
  intro run documents
  have hrun : run.2 = (fresh settings frontEnd checks).afterAll (Call.kept? frontEnd)
      (Call.logged? settings frontEnd checks) calls := performAll_snd _ calls
  have hfind : ∀ name, run.2.cache.find? name = documents.reverse.lookup name := by
    intro name
    rw [hrun, find?_afterAll]
    exact Option.or_none
  refine ⟨⟨hfind, ?_, ?_⟩, ⟨?_, forall₂_performAll (fresh settings frontEnd checks) calls⟩, ?_⟩
  · intro name
    rw [NameTable.mem_names_iff, hfind, ← Option.isSome_iff_exists, List.lookup_isSome_iff]
    constructor
    · rintro ⟨entry, hmem, hname⟩
      refine ⟨entry.2, ?_⟩
      rw [beq_iff_eq.1 hname]
      exact List.mem_reverse.1 hmem
    · rintro ⟨d, hmem⟩
      exact ⟨(name, d), List.mem_reverse.2 hmem, beq_iff_eq.2 rfl⟩
  · rw [hrun]
    exact (ordered_afterAll _ _ calls _ NameTable.ordered_empty).nodup
  · rw [hrun, entries_afterAll]
    exact List.nil_append _
  · intro files path d
    obtain ⟨hsettings, hfrontEnd, hchecks⟩ := tools_afterAll (fresh settings frontEnd checks)
      (Call.kept? frontEnd) (Call.logged? settings frontEnd checks) calls
    rw [compile_eq_some_iff, hrun, hsettings, hfrontEnd, hchecks]
    rfl

end SessionOver
end Kiln
