import SqlScript.Proofs.Retry.Report
import SqlScript.Proofs.Runner.Calls

/-!
# What becomes of the statements

In scan mode and without patterns every prepared statement runs once or is left as a failure,
whatever the connection does and however often failures are archived, scanned again and retried:
`Script.ran_append_failed_perm`. The law of a step is that of one pass, whose accepted and failed
statements are its statements in another order (`Pass.perm`). The law of the rounds compares texts
without semicolons and blanks at their ends, since scanning a text again removes those.
-/

namespace SqlScript

variable {σ : Type}

theorem Pass.perm (pass : Pass) : (pass.accepted ++ pass.failed).Perm pass.statements := by
  rw [Pass.accepted, Pass.failed, Pass.statements, ← List.map_append]
  exact (List.filter_append_perm _ _).map _

/-- The texts of some statements without semicolons and blanks at their ends. -/
def Statement.bareTexts (statements : List Statement) : List String :=
  statements.map fun s => Text.bare s.text

theorem Statement.bareTexts_append (first second : List Statement) :
    bareTexts (first ++ second) = bareTexts first ++ bareTexts second := List.map_append

theorem Statement.bareTexts_eq_map (statements : List Statement) :
    bareTexts statements = (statements.map Statement.text).map Text.bare := by
  rw [bareTexts, List.map_map]
  rfl

theorem Statement.bareTexts_number (texts : List String) :
    bareTexts (number texts) = texts.map Text.bare := by
  rw [bareTexts_eq_map, map_text_number]

theorem Pass.bareTexts_perm (pass : Pass) :
    (Statement.bareTexts pass.accepted ++ Statement.bareTexts pass.failed).Perm
      (Statement.bareTexts pass.statements) := by
  rw [← Statement.bareTexts_append]
  exact pass.perm.map _

namespace Retry

theorem accepted_cons (round : Round) (later : List Round) :
    accepted (round :: later) = round.pass.accepted ++ accepted later := List.flatMap_cons

namespace Plan

variable {p : Plan} {leads texts : List String}

theorem bareTexts_statements (hfilters : p.FiltersBy leads) (h : Keeps leads texts) :
    Statement.bareTexts (p.statements texts) = texts.map Text.bare := by
  rw [statements_of_keeps hfilters h, Statement.bareTexts_number, List.map_map]
  refine List.map_congr_left fun text _ => ?_
  exact Text.bare_bare text

/-- What a pass over the rounds' texts accepts and leaves, and what comes of what it leaves. -/
theorem perm_of_pass (hfilters : p.FiltersBy leads) (h : Keeps leads texts) {pass : Pass}
    (hpass : pass.statements = p.statements texts) {later : List String}
    (hlater : later.Perm ((pass.failed.map Statement.text).map Text.bare)) :
    (Statement.bareTexts pass.accepted ++ later).Perm (texts.map Text.bare) := by
  rw [← bareTexts_statements hfilters h, ← hpass]
  rw [← Statement.bareTexts_eq_map] at hlater
  exact (hlater.append_left _).trans pass.bareTexts_perm

/-- The texts that the rounds accept and those that they leave are the archived texts. -/
theorem Ran.perm_textsLeft {c : Connection σ} {left : Nat} {counter : Counter}
    {folded : Option Outcome} {w last : World σ} {run : Run}
    (h : p.Ran c left counter folded texts w run last) (hfilters : p.FiltersBy leads)
    (hkeeps : Keeps leads texts) :
    (Statement.bareTexts (accepted run.rounds) ++
      (textsLeft texts run.rounds).map Text.bare).Perm (texts.map Text.bare) := by
  have hsingle (pass : Pass) (batch : Option Archive.Batch) :
      accepted [⟨pass, batch⟩] = pass.accepted := by simp [accepted]
  induction h with
  | noneLeft => exact .refl _
  | unread => exact .refl _
  | exhausted => exact .refl _
  | clean hne hpass hclean =>
      rw [textsLeft_cons, hsingle]
      exact perm_of_pass hfilters hkeeps (Connection.statements_of_pass hpass) (.refl _)
  | unarchived hne hpass hfailed harchive =>
      rw [textsLeft_cons, hsingle]
      exact perm_of_pass hfilters hkeeps (Connection.statements_of_pass hpass) (.refl _)
  | again hne hpass hfailed harchive stores rest ih =>
      -- The later rounds start from what this one leaves, and account for it.
      have hstatements := Connection.statements_of_pass hpass
      rw [textsLeft_cons, accepted_cons, Statement.bareTexts_append, List.append_assoc]
      exact perm_of_pass hfilters hkeeps hstatements (ih (hkeeps.failed hfilters hstatements))

/-- What a report lists as failures are the texts that are left. -/
theorem Ran.bareTexts_failed {c : Connection σ} {left : Nat} {counter : Counter}
    {w last : World σ} {run : Run} (h : p.Ran c left counter none texts w run last)
    (hfilters : p.FiltersBy leads) (hkeeps : Keeps leads texts) {report : Report}
    (hreport : run.result = .ok report) :
    Statement.bareTexts report.outcome.failed = (textsLeft texts run.rounds).map Text.bare := by
  rw [(h.describes hreport).failed_eq, textsLeft]
  cases lastFailed run.rounds with
  | none => exact bareTexts_statements hfilters hkeeps
  | some failed => exact Statement.bareTexts_eq_map failed

end Plan

end Retry

namespace Script.Ran

variable {script : Script} {config : Config} {c : Connection σ} {w last : World (Resilient σ)}
  {run : Run} {summary : Summary}

/-- A summary counts what the passes did. -/
theorem outcome_eq (h : script.Ran config c w run last) (hrun : run.result = .ok summary) :
    summary.outcome.IsBalanced ∧
      summary.outcome.succeeded = (Retry.accepted run.rounds).length := by
  cases h with
  | @once _ first hpass hends =>
      cases hrun
      refine ⟨first.isBalanced_outcome, ?_⟩
      simp [Summary.ofPass, Pass.outcome, Retry.accepted]
  | unarchived => cases hrun
  | @retried after _ first batch files retried hpass hfailed harchives harchive hretried =>
      obtain ⟨report, hreport, rfl⟩ := exists_report hrun
      obtain ⟨hbalanced, hsucceeded⟩ := hretried.outcome_eq (by simp) hreport
      refine ⟨Outcome.isBalanced_andThen first.outcome hbalanced, ?_⟩
      rw [Retry.accepted_cons, List.length_append]
      simp only [Summary.absorb, Summary.ofPass, Outcome.andThen, hsucceeded, Pass.outcome,
        Retry.succeededBefore, Option.elim_none]
      omega

theorem bareTexts_perm (h : script.Ran config c w run last) (hscan : config.splitMode = .scan)
    (hpatterns : config.stripPatterns = []) (hrun : run.result = .ok summary) :
    (Statement.bareTexts (Retry.accepted run.rounds) ++
        Statement.bareTexts summary.outcome.failed).Perm
      (Statement.bareTexts (script.prepare config).statements) := by
  cases h with
  | @once _ first hpass hends =>
      cases hrun
      have hrounds : Retry.accepted [⟨first, none⟩] = first.accepted := by simp [Retry.accepted]
      rw [← Connection.statements_of_pass hpass, hrounds]
      exact first.bareTexts_perm
  | unarchived => cases hrun
  | @retried after _ first batch files retried hpass hfailed harchives harchive hretried =>
      obtain ⟨report, hreport, rfl⟩ := exists_report hrun
      have hkeeps := Script.keeps_failed hscan hpatterns (Connection.statements_of_pass hpass)
      have hfilters := config.filtersBy_retryPlan script.label
      have hrounds := hretried.perm_textsLeft hfilters hkeeps
      rw [← hretried.bareTexts_failed hfilters hkeeps hreport, ← Statement.bareTexts_eq_map]
        at hrounds
      rw [← Connection.statements_of_pass hpass, Retry.accepted_cons, Statement.bareTexts_append,
        List.append_assoc]
      exact (hrounds.append_left _).trans first.bareTexts_perm

end Script.Ran

/--
Every prepared statement runs once, in the first pass or in a round, or is left as a failure: none is
lost, run twice or made up, and none is counted twice. What ran is told by the calls that were made
on the session.
-/
theorem Script.ran_append_failed_perm (script : Script) (config : Config) (c : Connection σ)
    (w : World (Resilient (Recorded σ))) (hscan : config.splitMode = .scan)
    (hpatterns : config.stripPatterns = []) {summary : Summary}
    (hrun : (script.run config c.recorded w).1.result = .ok summary) :
    ∃ calls, (script.run config c.recorded w).2.session.inner.calls =
        w.session.inner.calls ++ calls ∧
      ((Call.ran calls).map Text.bare ++ Statement.bareTexts summary.outcome.failed).Perm
        (Statement.bareTexts (script.prepare config).statements) ∧
      summary.outcome.attempted = (script.prepare config).statements.length := by
  have hran := script.ran_run config c.recorded w
  have hperm := hran.bareTexts_perm hscan hpatterns hrun
  obtain ⟨hbalanced, hsucceeded⟩ := hran.outcome_eq hrun
  obtain ⟨calls, hmade, hcalls⟩ := script.exists_exchanges config c w
  refine ⟨calls, hmade, ?_, ?_⟩
  · rw [hcalls.ran_answers, Retry.ran, ← Statement.bareTexts_eq_map]
    exact hperm
  · have hlength := hperm.length_eq
    simp only [Statement.bareTexts, List.length_append, List.length_map] at hlength
    rw [← hbalanced, hsucceeded, hlength]

/-- A statement that needs a later one fails first and runs in the round after it. -/
theorem Script.ran_append_failed_perm_of_late_table :
    let session := { Scripted.fresh with requires := [("INSERT", "CREATE")] }
    let run := (Script.ofText "x" "INSERT;CREATE").run .default Scripted.connection.recorded
      (Resilient.watch (Scripted.world session))
    Config.default.IsValid ∧ ∃ summary, run.1.result = .ok summary ∧
      Call.ran run.2.session.inner.calls = ["CREATE", "INSERT"] ∧
      Call.texts run.2.session.inner.calls = ["INSERT", "CREATE", "INSERT"] ∧
      (["CREATE", "INSERT"] ++ Statement.bareTexts summary.outcome.failed).Perm
        ["INSERT", "CREATE"] ∧
      summary.outcome.attempted = 2 := by
  intro session
  have hprepared : ((Script.ofText "x" "INSERT;CREATE").prepare .default).statements =
      [⟨0, "INSERT"⟩, ⟨1, "CREATE"⟩] := by decide +kernel
  have hbare : Statement.bareTexts [⟨0, "INSERT"⟩, ⟨1, "CREATE"⟩] = ["INSERT", "CREATE"] ∧
      ["CREATE", "INSERT"].map Text.bare = ["CREATE", "INSERT"] := by decide +kernel
  have hlaw := @Script.ran_append_failed_perm _ (Script.ofText "x" "INSERT;CREATE") .default
    Scripted.connection (Resilient.watch (Scripted.world session)) rfl rfl
  rw [hprepared, hbare.1] at hlaw
  have hrun :
      let run := (Script.ofText "x" "INSERT;CREATE").run .default Scripted.connection.recorded
        (Resilient.watch (Scripted.world session))
      run.1.result.isOk = true ∧ Call.ran run.2.session.inner.calls = ["CREATE", "INSERT"] ∧
        Call.texts run.2.session.inner.calls = ["INSERT", "CREATE", "INSERT"] := by decide +kernel
  generalize (Script.ofText "x" "INSERT;CREATE").run .default Scripted.connection.recorded
    (Resilient.watch (Scripted.world session)) = run at hlaw hrun ⊢
  obtain ⟨hok, hran, htexts⟩ := hrun
  cases hresult : run.1.result with
  | error e =>
      rw [hresult] at hok
      cases hok
  | ok summary =>
      obtain ⟨calls, hcalls, hperm, hattempted⟩ := hlaw hresult
      obtain rfl : run.2.session.inner.calls = calls := hcalls
      rw [hran, hbare.2] at hperm
      exact ⟨by decide, summary, hresult, hran, htexts, hperm, hattempted⟩

end SqlScript
