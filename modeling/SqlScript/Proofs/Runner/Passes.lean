import SqlScript.Connection.Scripted
import SqlScript.Proofs.Retry.Units
import SqlScript.Runner

/-!
# The passes of a run

A run is a first pass over the prepared statements and, if failures are archived, the rounds over
their texts. What the archive gives back needs no mention, since it is what was written to it, unless
reading is refused.
-/

namespace SqlScript

open Scan

variable {σ : Type}

/-- What a script does from `w` on, and the world it leaves. -/
inductive Script.Ran (script : Script) (config : Config) (c : Connection σ)
    (w : World (Resilient σ)) : Run → World (Resilient σ) → Prop
  | once {after : World (Resilient σ)} {first : Pass}
      (hpass : (config.connection c).pass (script.prepare config).statements w = (first, after))
      (hends : first.failed = [] ∨ config.archiveFailures = false) :
      Ran script config c w ⟨[⟨first, none⟩], .ok (.ofPass script.label (script.prepare config)
        first (after.session.reconnects - w.session.reconnects))⟩ after
  | unarchived {after : World (Resilient σ)} {first : Pass} {e : ScriptError} {files : FileTree}
      (hpass : (config.connection c).pass (script.prepare config).statements w = (first, after))
      (hfailed : first.failed ≠ []) (harchives : config.archiveFailures = true)
      (harchive : config.archiver.archive first.failed script.label after.now after.files =
        (.error e, files)) :
      Ran script config c w ⟨[⟨first, none⟩], .error (.aborted first.outcome e)⟩
        { after with files }
  | retried {after last : World (Resilient σ)} {first : Pass} {batch : Archive.Batch}
      {files : FileTree} {retried : Retry.Run}
      (hpass : (config.connection c).pass (script.prepare config).statements w = (first, after))
      (hfailed : first.failed ≠ []) (harchives : config.archiveFailures = true)
      (harchive : config.archiver.archive first.failed script.label after.now after.files =
        (.ok batch, files))
      (hretried : (config.retryPlan script.label).Ran (config.connection c)
        config.maxAttempts.toNat (.ofLimit config.maxAttempts.toNat) none
        (first.failed.map Statement.text) { after with files } retried last)
      (hretry : (config.retryPlan script.label).retry (config.connection c) batch
        { after with files } = (retried, last)) :
      Ran script config c w ⟨⟨first, some batch⟩ :: retried.rounds,
        (retried.result.map (Summary.ofPass script.label (script.prepare config) first
          (last.session.reconnects - w.session.reconnects)).absorb).mapError
            (.aborted first.outcome)⟩ last

theorem Script.ran_run (script : Script) (config : Config) (c : Connection σ)
    (w : World (Resilient σ)) :
    script.Ran config c w (script.run config c w).1 (script.run config c w).2 := by
  rcases hpass : (config.connection c).pass (script.prepare config).statements w with
    ⟨first, after⟩
  simp only [Script.run, hpass]
  by_cases hends : first.outcome.isClean = true ∨ ¬ config.archiveFailures = true
  · rw [if_pos hends]
    refine .once hpass ?_
    rw [Retry.isClean_outcome_iff, Bool.not_eq_true] at hends
    exact hends
  rw [if_neg hends]
  rw [not_or, Retry.isClean_outcome_iff, Decidable.not_not] at hends
  obtain ⟨hfailed, harchives⟩ := hends
  rcases harchive : config.archiver.archive first.failed script.label after.now after.files with
    ⟨answer, files⟩
  simp only [Config.retryFailures, harchive]
  cases answer with
  | error e => exact .unarchived hpass hfailed harchives harchive
  | ok batch =>
      have hretried := (config.retryPlan script.label).ran_retry (config.connection c)
        (w := { after with files }) (Archive.stores_of_archive harchive)
      rcases hrun : (config.retryPlan script.label).retry (config.connection c) batch
        { after with files } with ⟨retried, last⟩
      rw [hrun] at hretried
      simp only [hrun]
      have hran := Script.Ran.retried hpass hfailed harchives harchive hretried hrun
      cases hresult : retried.result with
      | error e =>
          rw [hresult] at hran
          exact hran
      | ok report =>
          rw [hresult] at hran
          exact hran

/-- A summary of a run that retried comes from a report. -/
theorem Script.Ran.exists_report {retried : Retry.Run} {before summary : Summary}
    {outcome : Outcome}
    (h : (retried.result.map before.absorb).mapError (ScriptError.aborted outcome) = .ok summary) :
    ∃ report, retried.result = .ok report ∧ summary = before.absorb report := by
  cases hresult : retried.result with
  | error e =>
      rw [hresult] at h
      cases h
  | ok report =>
      rw [hresult] at h
      cases h
      exact ⟨report, rfl, rfl⟩

/-- A session with a connection around it that has not reconnected yet, and no files. -/
def Scripted.world (session : Scripted) : World (Resilient Scripted) :=
  ⟨.wrap session, .empty, .ofSeconds 0⟩

/-! ## Scanned scripts that are not rewritten -/

theorem Script.statements_prepare {script : Script} {config : Config}
    (hscan : config.splitMode = .scan) (hpatterns : config.stripPatterns = []) :
    (script.prepare config).statements = keepAllowed config.excludedPrefixes (split script.text) := by
  simp [Script.prepare, hscan, hpatterns, SplitMode.divide, exclude, strip]

theorem Config.filtersBy_retryPlan (config : Config) (label : String) :
    (config.retryPlan label).FiltersBy config.excludedPrefixes := by
  intro excluded hexcluded
  simp only [Config.retryPlan, Option.mem_def, Option.ite_none_right_eq_some,
    Option.some.injEq] at hexcluded
  exact hexcluded.2.symm

theorem Script.mem_split_of_mem_prepare {script : Script} {config : Config}
    (hscan : config.splitMode = .scan) (hpatterns : config.stripPatterns = []) {s : Statement}
    (hs : s ∈ (script.prepare config).statements) : s ∈ split script.text := by
  rw [Script.statements_prepare hscan hpatterns] at hs
  exact mem_of_mem_keepAllowed hs

theorem Script.keeps_prepare {script : Script} {config : Config} (hscan : config.splitMode = .scan)
    (hpatterns : config.stripPatterns = []) {s : Statement}
    (hs : s ∈ (script.prepare config).statements) :
    IsUnit s.text.toList ∧ isExcluded config.excludedPrefixes s.text = false := by
  have hsplit := Script.mem_split_of_mem_prepare hscan hpatterns hs
  rw [Script.statements_prepare hscan hpatterns] at hs
  exact ⟨isUnit_of_mem_split hsplit, isExcluded_of_mem_keepAllowed hs⟩

theorem Script.keeps_failed {script : Script} {config : Config} {first : Pass}
    (hscan : config.splitMode = .scan) (hpatterns : config.stripPatterns = [])
    (hfirst : first.statements = (script.prepare config).statements) :
    Retry.Keeps config.excludedPrefixes (first.failed.map Statement.text) := by
  intro text hmem
  obtain ⟨s, hs, rfl⟩ := List.mem_map.1 hmem
  have hs := Pass.mem_statements_of_mem_failed hs
  rw [hfirst] at hs
  exact Script.keeps_prepare hscan hpatterns hs

end SqlScript
