import SqlScript.Proofs.Files.Lineage
import SqlScript.Proofs.Retry.Trail
import SqlScript.Proofs.Runner.Calls

/-!
# The trail of a run

A run archives what each of its passes leaves, in the order of the passes. If none of its calls
does anything to the archive, that ends up with one new directory for each of them, which holds the
texts of its failures, and the summary names the last one if failures are left:
`Script.run_trailed`. The root of the archive is made along with what is missing above it, and a path
with double dots in it may have some of that lie in the root itself (`Script.run_trailed_dots`).
-/

namespace SqlScript

open FileTree

variable {σ : Type} {script : Script} {config : Config} {c : Connection σ}
  {w last : World (Resilient σ)} {run : Run} {summary : Summary}

namespace Script

theorem Ran.isSome_batch_iff (h : script.Ran config c w run last) (hrun : run.result = .ok summary) :
    ∀ round ∈ run.rounds,
      round.batch.isSome ↔ config.archiveFailures = true ∧ round.pass.failed ≠ [] := by
  cases h with
  | once hpass hends =>
      intro round hmem
      rw [List.mem_singleton.1 hmem]
      rcases hends with hclean | harchives
      · simp [hclean]
      · simp [harchives]
  | unarchived => cases hrun
  | retried hpass hfailed harchives harchive hretried =>
      obtain ⟨report, hreport, -⟩ := Ran.exists_report hrun
      have hlater := hretried.isSome_batch_iff hreport
      refine List.forall_mem_cons.2 ⟨by simp [harchives, hfailed], fun round hmem => ?_⟩
      rw [hlater round hmem, harchives, eq_self, true_and]

theorem Ran.exists_trailed {w last : World (Resilient (Recorded σ))}
    (h : script.Ran config c.recorded w run last)
    (hspared : Recorded.Spared config.archiveRoot w last) (htree : w.files.IsTree)
    (hrun : run.result = .ok summary) :
    ∃ names, Archive.Trailed w.files config.archiveRoot (Retry.trail run.rounds) last.files names := by
  have hgrows := (Recorded.Does.any c).tracks config.reconnectAttempts.toNat
  cases h with
  | once hpass hends => exact ⟨[], .nil (hspared.of_pass hpass)⟩
  | unarchived => cases hrun
  | retried hpass hfailed harchives harchive hretried =>
      obtain ⟨report, hreport, -⟩ := Ran.exists_report hrun
      obtain ⟨hfirst, hlater⟩ := hspared.split (hgrows.of_pass hpass)
        (hretried.tracks hgrows)
      exact Archive.Trailed.exists_of_archive (a := config.archiver)
        (Recorded.Spared.of_pass hfirst hpass) htree harchive
        fun htree' => hretried.exists_trailed hlater htree' hreport

/-- What a connection does in all its operations it does in the calls of a run. -/
theorem spans_run {rel : FileTree → FileTree → Prop} (h : Recorded.Does c rel) (script : Script)
    (config : Config) (w : World (Resilient (Recorded σ))) :
    Recorded.Spans rel w (script.run config c.recorded w).2 :=
  (script.ran_run config c.recorded w).tracks (h.tracks _)

theorem Ran.trail_ne_nil (h : script.Ran config c w run last) (hrun : run.result = .ok summary)
    (hstatus : summary.retryStatus = some .exhausted) : Retry.trail run.rounds ≠ [] := by
  cases h with
  | once =>
      cases hrun
      cases hstatus
  | unarchived => cases hrun
  | retried => exact List.cons_ne_nil _ _

/-- A summary names the last batch of its run if failures are left, and none otherwise. -/
theorem archiveLocation_of_run (h : (script.run config c w).1.result = .ok summary) :
    summary.archiveLocation =
      if summary.retryStatus = some .exhausted then
        ((Retry.trail (script.run config c w).1.rounds).map fun entry => entry.2.directory).getLast?
      else none := by
  rcases hpass : (config.connection c).pass (script.prepare config).statements w with ⟨first, after⟩
  simp only [run, hpass] at h ⊢
  by_cases hends : first.outcome.isClean = true ∨ ¬ config.archiveFailures = true
  · rw [if_pos hends] at h
    cases h
    rfl
  rw [if_neg hends] at h ⊢
  rcases harchive : config.archiver.archive first.failed script.label after.now after.files with
    ⟨answer, files⟩
  simp only [Config.retryFailures, harchive] at h ⊢
  cases answer with
  | error e => cases h
  | ok batch =>
      rcases hretry : (config.retryPlan script.label).retry (config.connection c) batch
        { after with files } with ⟨retried, last⟩
      simp only [hretry] at h ⊢
      cases hresult : retried.result with
      | error e => simp [hresult] at h
      | ok report =>
          simp only [hresult] at h ⊢
          cases h
          have hon := Retry.Plan.isOn_of_retry hretry hresult
          rw [Retry.Report.IsOn] at hon
          rw [Retry.trail_cons_some, List.map_cons, List.getLast?_cons, List.getLast?_map]
          simp only [Summary.absorb, Option.some.injEq, hon]
          split_ifs
          · cases (Retry.trail retried.rounds).getLast? <;> rfl
          · rfl

/--
A run in which no call does anything to the archive makes one directory in it for each pass that left
failures, in their order, with the texts of these failures and nothing else. The summary names the
last one if failures are left in the end. Nothing else is made in the archive, unless it was not
there and its path has double dots in it.
-/
theorem run_trailed (script : Script) (config : Config) (c : Connection σ)
    (w : World (Resilient (Recorded σ)))
    (hspared : Recorded.Spared config.archiveRoot w (script.run config c.recorded w).2)
    (htree : w.files.IsTree) (h : (script.run config c.recorded w).1.result = .ok summary) :
    (∀ round ∈ (script.run config c.recorded w).1.rounds,
      round.batch.isSome ↔ config.archiveFailures = true ∧ round.pass.failed ≠ []) ∧
    (∃ names, Archive.Trailed w.files config.archiveRoot
        (Retry.trail (script.run config c.recorded w).1.rounds)
        (script.run config c.recorded w).2.files names ∧
      (".." ∉ config.archiveRoot.pieces → ∀ rest, rest ≠ [] → (∀ name ∈ names, ¬ [name] <+: rest) →
        (script.run config c.recorded w).2.files.node? (w.files.placeOf config.archiveRoot ++ rest) =
          w.files.node? (w.files.placeOf config.archiveRoot ++ rest))) ∧
    (summary.retryStatus = some .exhausted →
      ∃ entry, (Retry.trail (script.run config c.recorded w).1.rounds).getLast? = some entry ∧
        summary.archiveLocation = some entry.2.directory) ∧
    (summary.retryStatus ≠ some .exhausted → summary.archiveLocation = none) := by
  have hran := script.ran_run config c.recorded w
  obtain ⟨names, htrailed⟩ := hran.exists_trailed hspared htree h
  have hlocation := archiveLocation_of_run h
  refine ⟨hran.isSome_batch_iff h, ⟨names, htrailed, fun hdots rest hne hnone =>
    htrailed.node?_of_notMem hdots hne hnone⟩, fun hstatus => ?_, fun hstatus => ?_⟩
  · have hlast := List.getLast?_eq_some_getLast (hran.trail_ne_nil h hstatus)
    rw [if_pos hstatus, List.getLast?_map, hlast] at hlocation
    exact ⟨_, hlast, hlocation⟩
  · rwa [if_neg hstatus] at hlocation

theorem run_trailed_integers :
    let config := { Config.default with archiveRoot := ⟨"a"⟩, maxAttempts := 1 }
    let w : World (Resilient (Recorded IntegerQueries.Session)) :=
      ⟨.wrap (.start ⟨true⟩), .empty, .ofSeconds 0⟩
    let run := (Script.ofText "x" "SELECT 1;SELEC 2").run config IntegerQueries.connection.recorded w
    config.IsValid ∧ ∃ summary, run.1.result = .ok summary ∧
      summary.archiveLocation = some ⟨"a/x_1970-01-01_00-00-00-1"⟩ ∧
      ∃ names : List String, names.map config.archiveRoot.join =
          [⟨"a/x_1970-01-01_00-00-00"⟩, ⟨"a/x_1970-01-01_00-00-00-1"⟩] ∧
        Archive.Trailed w.files config.archiveRoot (Retry.trail run.1.rounds) run.2.files names := by
  intro config w
  have hspared : Recorded.Spared config.archiveRoot w ((Script.ofText "x" "SELECT 1;SELEC 2").run
      config IntegerQueries.connection.recorded w).2 :=
    (spans_run IntegerQueries.does_connection _ config w).mono fun t later hsame => by
      subst hsame
      exact .refl _ t
  have hlaw (summary : Summary) := @run_trailed _ summary (Script.ofText "x" "SELECT 1;SELEC 2")
    config IntegerQueries.connection w hspared (by decide)
  have hrun :
      let run :=
        (Script.ofText "x" "SELECT 1;SELEC 2").run config IntegerQueries.connection.recorded w
      (run.1.result.toOption.map (fun summary => summary.retryStatus),
          (Retry.trail run.1.rounds).map (fun entry => entry.2.directory)) =
        (some (some .exhausted),
          [⟨"a/x_1970-01-01_00-00-00"⟩, ⟨"a/x_1970-01-01_00-00-00-1"⟩]) := by decide +kernel
  clear hspared
  generalize (Script.ofText "x" "SELECT 1;SELEC 2").run config IntegerQueries.connection.recorded w =
    run at hlaw hrun ⊢
  obtain ⟨hstatus, hdirectories⟩ := Prod.ext_iff.1 hrun
  cases hresult : run.1.result with
  | error e =>
      rw [hresult] at hstatus
      cases hstatus
  | ok summary =>
      obtain ⟨-, ⟨names, htrailed, -⟩, hexhausted, -⟩ := hlaw summary hresult
      rw [hresult] at hstatus
      obtain ⟨entry, hlast, hlocation⟩ := hexhausted (Option.some.inj hstatus)
      have hentry := congrArg List.getLast? hdirectories
      rw [List.getLast?_map, hlast] at hentry
      rw [Option.map_some, List.getLast?_cons_cons, List.getLast?_singleton] at hentry
      exact ⟨by decide, summary, hresult, hlocation.trans hentry, names,
        htrailed.directories.symm.trans hdirectories, htrailed⟩

/-- A root that a path names by way of a missing directory gets that directory as an entry. -/
theorem run_trailed_dots :
    let config := { Config.default with archiveRoot := ⟨"a/.."⟩, maxAttempts := 0 }
    let w := Scripted.world { Scripted.fresh with failing := ["BAD"] }
    let run := (Script.ofText "x" "BAD").run config Scripted.connection w
    config.IsValid ∧ run.1.result.isOk = true ∧
      run.1.rounds.map (fun round => round.pass.failed.map Statement.text) = [["BAD"]] ∧
      w.files.namesAt (w.files.placeOf config.archiveRoot) = [] ∧
      run.2.files.namesAt (w.files.placeOf config.archiveRoot) = ["x_1970-01-01_00-00-00", "a"] ∧
      run.2.files.node? (w.files.placeOf config.archiveRoot ++ ["a"]) = some .directory := by
  decide +kernel

end Script

end SqlScript
