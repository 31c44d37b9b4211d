import Kiln.Report.Log
import Mathlib.Data.List.Induction

/-!
# What a log keeps

A log keeps the greatest severity of its entries.  It is brought up to date with each diagnostic
that is added, and found anew when another log is appended, and whether a log has errors is told
from it and not from the entries.  For a log that has come about in any way, by additions and by
logs with histories and thresholds of their own, the two ways agree: the severity is the greatest
of all entries, and there are errors if an entry reaches the threshold with which the log began.
-/

namespace Kiln

/-! ## The greatest severity -/

namespace Severity

variable {s t : Severity} {severities : List Severity}

theorem reaches_iff : s.reaches t = true ↔ t.rank ≤ s.rank := decide_eq_true_iff

/-- The greatest of severities; `ignored` if there are none. -/
structure IsHighest (severities : List Severity) (s : Severity) : Prop where
  reaches : ∀ t ∈ severities, s.reaches t = true
  attained : s ∈ severities ∨ severities = [] ∧ s = .ignored

theorem isHighest_nil : IsHighest [] .ignored := ⟨List.forall_mem_nil _, Or.inr ⟨rfl, rfl⟩⟩

theorem IsHighest.concat (hs : IsHighest severities s) (t : Severity) :
    IsHighest (severities ++ [t]) (s.max t) := by
  rw [Severity.max]
  split
  · next hreaches =>
      refine ⟨fun u hu => ?_, Or.inl List.mem_concat_self⟩
      rcases List.mem_append.1 hu with hu | hu
      · have hle := reaches_iff.1 (hs.reaches u hu)
        exact reaches_iff.2 (Nat.le_trans hle (reaches_iff.1 hreaches))
      · exact List.mem_singleton.1 hu ▸ reaches_iff.2 (Nat.le_refl _)
  · next hreaches =>
      have hlt : t.rank < s.rank := Nat.lt_of_not_le fun hle => hreaches (reaches_iff.2 hle)
      refine ⟨fun u hu => ?_, ?_⟩
      · rcases List.mem_append.1 hu with hu | hu
        · exact hs.reaches u hu
        · exact List.mem_singleton.1 hu ▸ reaches_iff.2 (Nat.le_of_lt hlt)
      · rcases hs.attained with hmem | ⟨-, rfl⟩
        · exact Or.inl (List.mem_append_left _ hmem)
        · -- nothing is below the least severity
          exact absurd hlt (Nat.not_lt_zero _)

theorem isHighest_foldl (severities : List Severity) :
    IsHighest severities (severities.foldl Severity.max .ignored) := by
  induction severities using List.reverseRecOn with
  | nil => exact isHighest_nil
  | append_singleton severities t ih =>
      rw [List.foldl_append]
      exact ih.concat t

/-- The greatest severity reaches a threshold if one of the severities does. -/
theorem IsHighest.exists_reaches_iff (hs : IsHighest severities s) (threshold : Severity) :
    (∃ t ∈ severities, t.reaches threshold = true) ↔
      severities ≠ [] ∧ s.reaches threshold = true := by
  constructor
  · rintro ⟨t, ht, hreaches⟩
    refine ⟨List.ne_nil_of_mem ht, reaches_iff.2 ?_⟩
    exact Nat.le_trans (reaches_iff.1 hreaches) (reaches_iff.1 (hs.reaches t ht))
  · rintro ⟨hne, hreaches⟩
    rcases hs.attained with hmem | ⟨hnil, -⟩
    · exact ⟨s, hmem, hreaches⟩
    · exact absurd hnil hne

end Severity

/-! ## Histories of logs -/

/-- How a log has come about. -/
inductive LogHistory where
  | start (threshold : Severity)
  | add (history : LogHistory) (d : Diagnostic)
  /-- The entries of another log, which has a history of its own, were added. -/
  | append (history other : LogHistory)

namespace LogHistory

/-- The log of a history. -/
def log : LogHistory → Log
  | start threshold => .empty threshold
  | add history d => (history.log.add d).1
  | append history other => history.log.append other.log

/-- The threshold with which the log began. -/
def threshold : LogHistory → Severity
  | start threshold => threshold
  | add history _ => history.threshold
  | append history _ => history.threshold

/-- The diagnostics that were added, by way of another log or not, in order. -/
def recorded : LogHistory → List Diagnostic
  | start _ => []
  | add history d => history.recorded ++ [d]
  | append history other => history.recorded ++ other.recorded

theorem threshold_log (history : LogHistory) : history.log.threshold = history.threshold := by
  induction history with
  | start threshold => rfl
  | add history d ih => exact ih
  | append history other ih _ => exact ih

theorem entries_log (history : LogHistory) : history.log.entries = history.recorded := by
  induction history with
  | start threshold => rfl
  | add history d ih => exact congrArg (· ++ [d]) ih
  | append history other ih ihOther =>
      rw [log, Log.append, ih, ihOther]
      rfl

/-- Kept up to date or found anew, the severity is the greatest of the entries. -/
theorem isHighest_log (history : LogHistory) :
    Severity.IsHighest (history.log.entries.map (·.main.severity)) history.log.highest := by
  induction history with
  | start threshold => exact Severity.isHighest_nil
  | add history d ih =>
      rw [log, Log.add, List.map_append]
      exact ih.concat d.main.severity
  | append history other _ _ => exact Severity.isHighest_foldl _

theorem hasErrors_log_iff (history : LogHistory) :
    history.log.hasErrors = true ↔
      ∃ d ∈ history.recorded, d.main.severity.reaches history.threshold = true := by
  have hexists := history.isHighest_log.exists_reaches_iff history.threshold
  rw [entries_log, ne_eq, List.map_eq_nil_iff] at hexists
  simp only [List.mem_map, exists_exists_and_eq_and] at hexists
  rw [hexists, Log.hasErrors, threshold_log, entries_log, Bool.and_eq_true, Bool.not_eq_true',
    List.isEmpty_eq_false_iff]

/-- A log keeps its threshold and all that is recorded, in order, with the greatest severity.  It
has errors if an entry reaches its own threshold, and a diagnostic that is added escalates if it
reaches this threshold. -/
theorem log_summary (history : LogHistory) :
    history.log.threshold = history.threshold ∧
      history.log.entries = history.recorded ∧
      Severity.IsHighest (history.recorded.map (·.main.severity)) history.log.highest ∧
      (history.log.hasErrors = true ↔
        ∃ d ∈ history.recorded, d.main.severity.reaches history.threshold = true) ∧
      ∀ d, (history.log.add d).1.entries = history.recorded ++ [d] ∧
        (history.log.add d).2 =
          if d.main.severity.reaches history.threshold
          then some ⟨d.main.severity, history.threshold⟩ else none := by
  refine ⟨history.threshold_log, history.entries_log, ?_, history.hasErrors_log_iff, fun d => ?_⟩
  · rw [← entries_log]
    exact history.isHighest_log
  · rw [← entries_log, ← threshold_log]
    exact ⟨rfl, rfl⟩

/-- A log without entries has no errors, even if every severity reaches its threshold. -/
example : (LogHistory.start .ignored).log.hasErrors = false := rfl

end LogHistory
end Kiln
