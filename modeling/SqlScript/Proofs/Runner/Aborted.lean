import SqlScript.Proofs.Runner.Accounting

/-!
# Aborted runs

A run that cannot write or read its archive ends with the outcome of its first pass, in whichever
round that happens. So an aborted run does not count the statements that ran in its rounds, and lists
them among its failures: `Script.aborted_outcome`. The failures that are really left are those of the
last pass that was made.
-/

namespace SqlScript

variable {σ : Type}

open Resilient

/-- Rounds that are stopped by an error leave texts. -/
theorem Retry.Plan.Ran.textsLeft_ne_nil {p : Plan} {c : Connection σ} {left : Nat}
    {counter : Counter} {folded : Option Outcome} {texts : List String} {w last : World σ} {run : Run}
    (h : p.Ran c left counter folded texts w run last) {e : ScriptError}
    (herror : run.result = .error e) : textsLeft texts run.rounds ≠ [] := by
  induction h with
  | noneLeft => cases herror
  | unread hne => exact hne
  | exhausted => cases herror
  | clean => cases herror
  | unarchived hne hpass hfailed =>
      rw [textsLeft_cons, textsLeft, lastFailed, List.getLast?_nil]
      simpa using hfailed
  | again hne hpass hfailed harchive stores rest ih =>
      rw [textsLeft_cons]
      exact ih herror

/-- A run that ends with an error reports its first pass, which left failures. -/
theorem Script.Ran.exists_aborted {script : Script} {config : Config} {c : Connection σ}
    {w last : World (Resilient σ)} {run : Run} (h : script.Ran config c w run last) {e : ScriptError}
    (herror : run.result = .error e) :
    ∃ first later source, run.rounds = first :: later ∧ e = .aborted first.pass.outcome source ∧
      first.pass.statements = (script.prepare config).statements ∧
      Retry.textsLeft (first.pass.failed.map Statement.text) later ≠ [] ∧
      (config.splitMode = .scan → config.stripPatterns = [] →
        (Statement.bareTexts (Retry.accepted later) ++
          (Retry.textsLeft (first.pass.failed.map Statement.text) later).map Text.bare).Perm
            (Statement.bareTexts first.pass.failed)) := by
  cases h with
  | once => cases herror
  | @unarchived _ first _ _ hpass hfailed harchives harchive =>
      cases herror
      refine ⟨_, [], _, rfl, rfl, Connection.statements_of_pass hpass, ?_, fun _ _ => ?_⟩
      · simpa [Retry.textsLeft, Retry.lastFailed] using hfailed
      · rw [Statement.bareTexts_eq_map first.failed]
        exact .refl _
  | @retried after _ first batch files retried hpass hfailed harchives harchive hretried =>
      have hstatements := Connection.statements_of_pass hpass
      cases hresult : retried.result with
      | ok report =>
          rw [hresult] at herror
          cases herror
      | error source =>
          rw [hresult] at herror
          cases herror
          refine ⟨_, _, source, rfl, rfl, hstatements, hretried.textsLeft_ne_nil hresult,
            fun hscan hpatterns => ?_⟩
          rw [Statement.bareTexts_eq_map first.failed]
          exact hretried.perm_textsLeft (config.filtersBy_retryPlan script.label)
            (Script.keeps_failed hscan hpatterns hstatements)

/--
An aborted run reports its first pass. The texts that ran on the session are those that it counts
and, after them, those that ran in the later rounds. So its count is right if and only if nothing ran
in these. Where the script was scanned and is not rewritten, what ran in them is listed as failed,
beside the failures of the last pass that was made.
-/
theorem Script.aborted_outcome (script : Script) (config : Config) (c : Connection σ)
    (w : World (Resilient (Recorded σ))) {e : ScriptError}
    (hrun : (script.run config c.recorded w).1.result = .error e) :
    ∃ first later source early late,
      (script.run config c.recorded w).1.rounds = first :: later ∧
      e = .aborted first.pass.outcome source ∧
      (script.run config c.recorded w).2.session.inner.calls =
        w.session.inner.calls ++ (early ++ late) ∧
      Exchanges (max 1 config.reconnectAttempts.toNat) first.pass.answers early ∧
      Exchanges (max 1 config.reconnectAttempts.toNat) (Retry.answers later) late ∧
      first.pass.outcome.succeeded = (Call.ran early).length ∧
      (first.pass.outcome.succeeded = (Call.ran (early ++ late)).length ↔ Call.ran late = []) ∧
      (config.splitMode = .scan → config.stripPatterns = [] →
        ∃ stopped ∈ (first :: later).getLast?, stopped.pass.failed ≠ [] ∧
          ((Call.ran late).map Text.bare ++ Statement.bareTexts stopped.pass.failed).Perm
            (Statement.bareTexts first.pass.outcome.failed)) := by
  obtain ⟨first, later, source, hrounds, hfirst, -, hleft, hperm⟩ :=
    (script.ran_run config c.recorded w).exists_aborted hrun
  obtain ⟨calls, hmade, hcalls⟩ := script.exists_exchanges config c w
  rw [hrounds, Retry.answers, List.flatMap_cons] at hcalls
  obtain ⟨early, late, rfl, hearly, hlate⟩ := hcalls.exists_of_append
  have hran : Call.ran late = (Retry.accepted later).map Statement.text :=
    Exchanges.ran_answers hlate
  have hcount : first.pass.outcome.succeeded = (Call.ran early).length := by
    rw [hearly.ran_eq, List.length_map, Pass.outcome, Pass.accepted, List.length_map]
  refine ⟨first, later, source, early, late, hrounds, hfirst, hmade, hearly, hlate, hcount, ?_,
    fun hscan hpatterns => ?_⟩
  · rw [hcount, Call.ran_append, List.length_append, ← List.length_eq_zero_iff]
    omega
  · have hlast := List.getLast?_eq_some_getLast (List.cons_ne_nil first later)
    have htexts := Retry.textsLeft_of_mem_getLast? [] (Option.mem_def.2 hlast)
    rw [Retry.textsLeft_cons] at htexts
    have hall := hperm hscan hpatterns
    rw [htexts] at hleft hall
    refine ⟨_, hlast, fun hnil => hleft (by rw [hnil, List.map_nil]), ?_⟩
    rw [hran, ← Statement.bareTexts_eq_map]
    rwa [← Statement.bareTexts_eq_map] at hall

/-- The archive is lost while the first round runs: what ran in that round is reported as a failure. -/
theorem Script.aborted_outcome_of_lost_archive :
    let session := { Scripted.fresh with
      requires := [("INSERT", "CREATE")]
      failing := ["BAD"]
      effects := [(5, [.remove ⟨"fails"⟩, .write ⟨"fails"⟩ .empty])] }
    let run := (Script.ofText "x" "INSERT;CREATE;BAD").run .default Scripted.connection.recorded
      (watch (Scripted.world session))
    Config.default.IsValid ∧ Call.ran run.2.session.inner.calls = ["CREATE", "INSERT"] ∧
      ∃ outcome source, run.1.result = .error (.aborted outcome source) ∧
        outcome = ⟨3, 1, [⟨0, "INSERT"⟩, ⟨2, "BAD"⟩]⟩ ∧
        ∃ early late, run.2.session.inner.calls = early ++ late ∧ Call.ran late = ["INSERT"] := by
  intro session
  have hlaw := @Script.aborted_outcome _ (Script.ofText "x" "INSERT;CREATE;BAD") .default
    Scripted.connection (watch (Scripted.world session))
  have hrun :
      let run := (Script.ofText "x" "INSERT;CREATE;BAD").run .default Scripted.connection.recorded
        (watch (Scripted.world session))
      run.1.result.isOk = false ∧ Call.ran run.2.session.inner.calls = ["CREATE", "INSERT"] ∧
        run.1.rounds.head?.map (·.pass.outcome) = some ⟨3, 1, [⟨0, "INSERT"⟩, ⟨2, "BAD"⟩]⟩ ∧
        Retry.ran run.1.rounds.tail = ["INSERT"] := by decide +kernel
  generalize (Script.ofText "x" "INSERT;CREATE;BAD").run .default Scripted.connection.recorded
    (watch (Scripted.world session)) = run at hlaw hrun ⊢
  obtain ⟨hok, hran, hfirst, hlater⟩ := hrun
  cases hresult : run.1.result with
  | ok summary =>
      rw [hresult] at hok
      cases hok
  | error e =>
      obtain ⟨first, later, source, early, late, hrounds, rfl, hcalls, -, hlate, -⟩ := hlaw hresult
      rw [hrounds] at hfirst hlater
      exact ⟨by decide, hran, _, source, hresult, Option.some.inj hfirst, early, late, hcalls,
        (Exchanges.ran_answers hlate).trans hlater⟩

/-- A batch that was archived and cannot be read aborts a run all the same. -/
example :
    let files := { FileTree.empty with
      hides := fun place => if place.getLast? = some "0.sql" then some (.other "denied") else none }
    let run := (Script.ofText "x" "BAD").run .default Scripted.connection
      ⟨.wrap { Scripted.fresh with failing := ["BAD"] }, files, .ofSeconds 0⟩
    run.1.result.isOk = false ∧ run.1.rounds.map (fun round => round.batch.isSome) = [true] := by
  decide +kernel

end SqlScript
