import SqlScript.Proofs.Retry.Report
import SqlScript.Proofs.Runner.Accounting
import SqlScript.Proofs.Runner.Calls

/-!
# What a summary counts

The calls that a run makes on the inner session are the exchanges for its statements, pass by pass.
A summary counts those that ran and the sessions that were opened in between, and lists what the
last pass left: `Summary.counts_of_run`.
-/

namespace SqlScript

variable {σ : Type}

open Resilient

namespace Script.Ran

variable {script : Script} {config : Config} {c : Connection σ} {w last : World (Resilient σ)}
  {run : Run} {summary : Summary}

theorem reconnects_eq (h : script.Ran config c w run last) (hrun : run.result = .ok summary) :
    summary.reconnects = last.session.reconnects - w.session.reconnects := by
  cases h with
  | once =>
      cases hrun
      rfl
  | unarchived => cases hrun
  | retried =>
      obtain ⟨report, _, rfl⟩ := exists_report hrun
      rfl

/--
The failures are those of the last pass. If no round is allowed after a first pass that failed, they
are the statements that a round would have had.
-/
theorem failed_eq (h : script.Ran config c w run last) (hrun : run.result = .ok summary) :
    ∃ first later, run.rounds = first :: later ∧
      summary.outcome.failed =
        if config.archiveFailures ∧ config.maxAttempts = 0 ∧ first.pass.failed ≠ [] then
          (config.retryPlan script.label).statements (first.pass.failed.map Statement.text)
        else (Retry.lastFailed later).getD first.pass.failed := by
  cases h with
  | @once _ first hpass hends =>
      cases hrun
      refine ⟨_, _, rfl, ?_⟩
      rw [if_neg]
      · rfl
      · rintro ⟨harchives, _, hfailed⟩
        rcases hends with hclean | hoff
        · exact hfailed hclean
        · rw [hoff] at harchives
          cases harchives
  | unarchived => cases hrun
  | @retried after _ first batch files retried hpass hfailed harchives harchive hretried =>
      obtain ⟨report, hreport, rfl⟩ := exists_report hrun
      refine ⟨_, _, rfl, ?_⟩
      have hleft : report.outcome.failed = (Retry.lastFailed retried.rounds).getD
          ((config.retryPlan script.label).statements (first.failed.map Statement.text)) :=
        (hretried.describes hreport).failed_eq
      have hnone := hretried.rounds_eq_nil_iff hreport
      show report.outcome.failed = _
      -- There are texts to retry, so a round was made unless none is allowed.
      by_cases hzero : config.maxAttempts = 0
      · rw [if_pos ⟨harchives, hzero, hfailed⟩, hleft, hnone.2 (.inr (congrArg _ hzero))]
        rfl
      · rw [if_neg fun h => hzero h.2.1, hleft]
        cases hrounds : retried.rounds with
        | nil =>
            rcases hnone.1 hrounds with htexts | hleft
            · exact absurd (List.map_eq_nil_iff.1 htexts) hfailed
            · exact absurd (UInt32.toNat_inj.1 hleft) hzero
        | cons round later =>
            rw [Retry.lastFailed_cons]
            rfl

end Script.Ran

/-- A summary of a batch comes from a report on the rounds over its texts. -/
theorem Archive.Batch.exists_report {batch : Archive.Batch} {label : String} {config : Config}
    {c : Connection σ} {w last : World (Resilient σ)} {run : Run} {summary : Summary}
    (h : batch.run label config c w = (run, last)) (hrun : run.result = .ok summary) :
    ∃ texts report, batch.read w.files = .ok texts ∧
      (config.retryPlan label).Ran (config.connection c) config.maxAttempts.toNat
        (.ofLimit config.maxAttempts.toNat) none texts w ⟨run.rounds, .ok report⟩ last ∧
      summary.outcome = report.outcome ∧
      summary.reconnects = last.session.reconnects - w.session.reconnects := by
  rcases hretry : (config.retryPlan label).retry (config.connection c) batch w with ⟨retried, after⟩
  simp only [Archive.Batch.run, hretry] at h
  cases hresult : retried.result with
  | error e =>
      rw [hresult] at h
      cases h
      cases hrun
  | ok report =>
      rw [hresult] at h
      cases h
      cases hrun
      have hreport : ((config.retryPlan label).retry (config.connection c) batch w).1.result =
          .ok report := by rw [hretry, hresult]
      obtain ⟨texts, hread⟩ := Retry.Plan.exists_texts_of_retry hreport
      have hran := (config.retryPlan label).ran_retry (config.connection c)
        (Archive.Batch.stores_of_read hread)
      rw [hretry] at hran
      refine ⟨texts, report, hread, ?_, rfl, rfl⟩
      rw [← hresult]
      exact hran

/--
A summary of some rounds and of the calls that were made on the inner session meanwhile. These are
the exchanges for the statements of the rounds.
-/
structure Summary.Counts (summary : Summary) (bound : Nat) (rounds : List Retry.Round)
    (calls : List Call) : Prop where
  exchanges : Exchanges bound (Retry.answers rounds) calls
  answered : summary.outcome.succeeded =
    (Retry.answers rounds).countP fun answer => answer.2.isOk
  ran : summary.outcome.succeeded = calls.countP Call.runs
  attempted : summary.outcome.attempted =
    summary.outcome.succeeded + summary.outcome.failed.length
  reconnects : summary.reconnects = calls.countP Call.opens

theorem Summary.counts_of_traces {summary : Summary} {bound : Nat} {rounds : List Retry.Round}
    {w : World (Resilient σ)} {last : World (Resilient (Recorded σ))}
    (htraces : ∃ calls, Traces (watch w) last calls ∧ Exchanges bound (Retry.answers rounds) calls)
    (hbalanced : summary.outcome.IsBalanced)
    (hsucceeded : summary.outcome.succeeded = (Retry.accepted rounds).length)
    (hreconnects : summary.reconnects = last.session.reconnects - w.session.reconnects) :
    summary.Counts bound rounds last.session.inner.calls := by
  obtain ⟨calls, htraces, hcalls⟩ := htraces
  have hmade : last.session.inner.calls = calls := htraces.calls_eq
  have hopened : last.session.reconnects = w.session.reconnects + calls.countP Call.opens :=
    htraces.reconnects_eq
  rw [Retry.length_accepted] at hsucceeded
  rw [hmade]
  refine ⟨hcalls, hsucceeded, ?_, hbalanced.symm, ?_⟩
  · rw [hsucceeded, hcalls.countP_runs]
  · rw [hreconnects, hopened]
    omega

theorem Script.counts (script : Script) (config : Config) (c : Connection σ)
    (w : World (Resilient σ)) {summary : Summary}
    (hrun : (script.run config c w).1.result = .ok summary) :
    summary.Counts (max 1 config.reconnectAttempts.toNat) (script.run config c w).1.rounds
      (script.run config c.recorded (watch w)).2.session.inner.calls := by
  -- The run whose calls are written down has the same passes and the same summary.
  have hsame := congrArg Prod.fst (script.agrees_run config c.agrees_recorded (watch w))
  change (script.run config c w).1 = (script.run config c.recorded (watch w)).1 at hsame
  rw [hsame] at hrun ⊢
  have hran := script.ran_run config c.recorded (watch w)
  obtain ⟨hbalanced, hsucceeded⟩ := hran.outcome_eq hrun
  exact Summary.counts_of_traces (hran.tracks (tracks_exchanges c _)) hbalanced hsucceeded
    (hran.reconnects_eq hrun)

theorem Archive.Batch.counts (batch : Archive.Batch) (label : String) (config : Config)
    (c : Connection σ) (w : World (Resilient σ)) {summary : Summary}
    (hrun : (batch.run label config c w).1.result = .ok summary) :
    summary.Counts (max 1 config.reconnectAttempts.toNat) (batch.run label config c w).1.rounds
        (batch.run label config c.recorded (watch w)).2.session.inner.calls ∧
      ∃ texts, batch.read w.files = .ok texts ∧
        summary.outcome.failed = (Retry.lastFailed (batch.run label config c w).1.rounds).getD
          ((config.retryPlan label).statements texts) ∧
        ((batch.run label config c w).1.rounds = [] ↔ texts = [] ∨ config.maxAttempts = 0) := by
  have hsame := congrArg Prod.fst (batch.agrees_run label config c.agrees_recorded (watch w))
  change (batch.run label config c w).1 = (batch.run label config c.recorded (watch w)).1 at hsame
  rw [hsame] at hrun ⊢
  rcases hboth : batch.run label config c.recorded (watch w) with ⟨run, last⟩
  rw [hboth] at hrun
  obtain ⟨texts, report, hread, hran, houtcome, hreconnects⟩ :=
    Archive.Batch.exists_report hboth hrun
  obtain ⟨hbalanced, hsucceeded⟩ := hran.outcome_eq (by simp) rfl
  rw [← houtcome] at hbalanced hsucceeded
  refine ⟨Summary.counts_of_traces (hran.tracks (tracks_exchanges c _)) hbalanced ?_ hreconnects,
    texts, hread, ?_, ?_⟩
  · rw [hsucceeded]
    exact Nat.zero_add _
  · rw [houtcome]
    exact (hran.describes rfl).failed_eq
  · rw [← UInt32.toNat_inj]
    exact hran.rounds_eq_nil_iff rfl

/--
A summary counts what happened on the connection in its run, whatever happened before. It lists the
failures of the last pass or, where no round is allowed, what is left in the archive to be retried.
-/
theorem Summary.counts_of_run (config : Config) (c : Connection σ) (w : World (Resilient σ))
    (summary : Summary) :
    (∀ script : Script, (script.run config c w).1.result = .ok summary →
      summary.Counts (max 1 config.reconnectAttempts.toNat) (script.run config c w).1.rounds
        (script.run config c.recorded (watch w)).2.session.inner.calls ∧
      ∃ first later, (script.run config c w).1.rounds = first :: later ∧
        summary.outcome.failed =
          if config.archiveFailures ∧ config.maxAttempts = 0 ∧ first.pass.failed ≠ [] then
            (config.retryPlan script.label).statements (first.pass.failed.map Statement.text)
          else (Retry.lastFailed later).getD first.pass.failed) ∧
    (∀ (batch : Archive.Batch) (label : String),
      (batch.run label config c w).1.result = .ok summary →
      summary.Counts (max 1 config.reconnectAttempts.toNat) (batch.run label config c w).1.rounds
        (batch.run label config c.recorded (watch w)).2.session.inner.calls ∧
      ∃ texts, batch.read w.files = .ok texts ∧
        summary.outcome.failed = (Retry.lastFailed (batch.run label config c w).1.rounds).getD
          ((config.retryPlan label).statements texts) ∧
        ((batch.run label config c w).1.rounds = [] ↔ texts = [] ∨ config.maxAttempts = 0)) := by
  constructor
  · intro script hrun
    exact ⟨script.counts config c w hrun, (script.ran_run config c w).failed_eq hrun⟩
  · intro batch label hrun
    exact batch.counts label config c w hrun

/-- The session was opened three times before the run and drops once in it. -/
theorem Summary.counts_of_run_of_dropped :
    let session := { Scripted.fresh with
      requires := [("INSERT", "CREATE")]
      failing := ["BAD"]
      faultOn := [("CREATE", 1)] }
    let w : World (Resilient Scripted) := ⟨⟨session, 3⟩, .empty, .ofSeconds 0⟩
    let script := Script.ofText "x" "INSERT;CREATE;BAD"
    let config := { Config.default with maxAttempts := 1 }
    let calls := (script.run config Scripted.connection.recorded (watch w)).2.session.inner.calls
    ∃ summary, (script.run config Scripted.connection w).1.result = .ok summary ∧
      summary.outcome = ⟨3, 2, [⟨1, "BAD"⟩]⟩ ∧ calls.countP Call.runs = 2 ∧
      summary.reconnects = 1 ∧ calls.countP Call.opens = 1 := by
  intro session w script config
  have hlaw := fun summary => (Summary.counts_of_run config Scripted.connection w summary).1 script
  have hrun : (script.run config Scripted.connection w).1.result.toOption.map
      (fun summary => (summary.outcome, summary.reconnects)) =
      some (⟨3, 2, [⟨1, "BAD"⟩]⟩, 1) := by decide +kernel
  generalize (script.run config Scripted.connection.recorded (watch w)).2.session.inner.calls =
    calls at hlaw ⊢
  generalize (script.run config Scripted.connection w).1 = run at hlaw hrun ⊢
  cases hresult : run.result with
  | error e =>
      rw [hresult] at hrun
      cases hrun
  | ok summary =>
      obtain ⟨hcounts, -⟩ := hlaw summary hresult
      rw [hresult] at hrun
      obtain ⟨houtcome, hreconnects⟩ := Prod.mk.inj (Option.some.inj hrun)
      have hran := hcounts.ran
      have hopened := hcounts.reconnects
      rw [houtcome] at hran
      rw [hreconnects] at hopened
      exact ⟨summary, rfl, houtcome, hran.symm, hreconnects, hopened.symm⟩

end SqlScript
