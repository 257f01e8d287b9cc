import SqlScript.Proofs.Runner.Calls
import SqlScript.Proofs.Scan.Ends
import SqlScript.Proofs.Scan.Silent

/-!
# The first retry round

The first round scans the texts of the failures of the first pass, however the script was divided.
A failure whose text is silent for the scan gives no statement to it and is not handed over again,
and a round that is left without statements counts as one without failures. Where the script was
scanned and not rewritten, every failure is handed over again, without the semicolons at its end.
-/

namespace SqlScript

open Scan Resilient

variable {σ : Type}

theorem Scan.IsUnit.not_isSilent {text : String} (h : IsUnit text.toList) : ¬ IsSilent text := by
  intro hsilent
  have hsplit := split_of_isUnit h
  rw [split_eq_nil_iff.2 hsilent] at hsplit
  exact absurd hsplit (by simp)

theorem Pass.eq_of_statements_eq_nil {pass : Pass} (h : pass.statements = []) : pass = ⟨[]⟩ := by
  cases pass with
  | mk answers =>
      have hanswers : answers = [] := List.map_eq_nil_iff.1 h
      rw [hanswers]

namespace Retry

theorem statementsOf_eq_nil_iff {texts : List String} :
    statementsOf texts = [] ↔ ∀ text ∈ texts, IsSilent text := by
  rw [← List.map_eq_nil_iff (f := Statement.text), map_text_statementsOf, List.flatMap_eq_nil_iff]
  refine forall_congr' fun text => forall_congr' fun _ => ?_
  rw [List.map_eq_nil_iff, split_eq_nil_iff]

namespace Plan

variable {p : Plan} {c : Connection σ} {left : Nat} {counter : Counter} {folded : Option Outcome}
  {texts : List String} {w last : World σ} {run : Run}

/-- A round is made over a batch that is read, if one is allowed. -/
theorem rounds_ne_nil (p : Plan) (c : Connection σ) {batch : Archive.Batch} {w : World σ}
    (hattempts : p.maxAttempts ≠ 0) (hread : batch.read w.files = .ok texts) (hne : texts ≠ []) :
    (p.retry c batch w).1.rounds ≠ [] := by
  obtain ⟨left, hleft⟩ := Nat.exists_eq_add_one_of_ne_zero hattempts
  have hstores := Archive.Batch.stores_of_read hread
  rw [retry, hleft, rounds, if_neg fun h => hne (hstores.isEmpty_iff.1 h)]
  simp only [load_of_read hread]
  rcases p.round c (p.statements texts) w with ⟨pass, _ | _ | next, after⟩ <;> simp

/-- A round over some texts runs their statements. If there is none, it is the last one. -/
theorem Ran.exists_round (h : p.Ran c left counter folded texts w run last)
    (hrounds : run.rounds ≠ []) :
    ∃ round later, run.rounds = round :: later ∧ round.pass.statements = p.statements texts ∧
      (p.statements texts = [] → later = [] ∧
        run.result = .ok ⟨fold folded .empty, counter.next, .resolved, none⟩) := by
  cases h with
  | noneLeft => exact absurd rfl hrounds
  | unread => exact absurd rfl hrounds
  | exhausted => exact absurd rfl hrounds
  | @clean _ _ _ _ _ _ pass _ hpass hclean =>
      have hstatements := Connection.statements_of_pass hpass
      refine ⟨_, _, rfl, hstatements, fun hempty => ⟨rfl, ?_⟩⟩
      rw [Pass.eq_of_statements_eq_nil (hstatements.trans hempty)]
      rfl
  -- A round that leaves failures has statements.
  | unarchived _ hpass hfailed _ =>
      have hstatements := Connection.statements_of_pass hpass
      refine ⟨_, _, rfl, hstatements, fun hempty => absurd ?_ hfailed⟩
      rw [Pass.eq_of_statements_eq_nil (hstatements.trans hempty)]
      rfl
  | again _ hpass hfailed _ _ _ =>
      have hstatements := Connection.statements_of_pass hpass
      refine ⟨_, _, rfl, hstatements, fun hempty => absurd ?_ hfailed⟩
      rw [Pass.eq_of_statements_eq_nil (hstatements.trans hempty)]
      rfl

end Plan

end Retry

/-- The first pass left failures, and they were archived. -/
def Run.Archived (run : Run) : Prop := ∃ first ∈ run.rounds.head?, first.batch.isSome = true

instance (run : Run) : Decidable run.Archived :=
  inferInstanceAs (Decidable (∃ first ∈ run.rounds.head?, first.batch.isSome = true))

/-- What comes of archiving the failures of the first pass. -/
def Script.firstBatch (script : Script) (config : Config) (c : Connection σ)
    (w : World (Resilient σ)) : Except ScriptError Archive.Batch × FileTree :=
  let opened := (config.connection c).pass (script.prepare config).statements w
  config.archiver.archive opened.1.failed script.label opened.2.now opened.2.files

/-- The batch of the first pass can be read where it was archived. -/
def Script.ReadsBack (script : Script) (config : Config) (c : Connection σ)
    (w : World (Resilient σ)) : Prop :=
  ∀ batch ∈ (script.firstBatch config c w).1.toOption,
    batch.IsReadable (script.firstBatch config c w).2

instance (script : Script) (config : Config) (c : Connection σ) (w : World (Resilient σ)) :
    Decidable (script.ReadsBack config c w) :=
  inferInstanceAs (Decidable (∀ batch ∈ (script.firstBatch config c w).1.toOption,
    batch.IsReadable (script.firstBatch config c w).2))

/-- An archived first pass is followed by a round over the texts of its failures. -/
theorem Script.Ran.exists_first_two {script : Script} {config : Config} {c : Connection σ}
    {w last : World (Resilient σ)} {run : Run} (h : script.Ran config c w run last)
    (hattempts : config.maxAttempts ≠ 0) (harchived : run.Archived)
    (hreads : script.ReadsBack config c w) :
    ∃ first second later, run.rounds = first :: second :: later ∧
      first.pass.statements = (script.prepare config).statements ∧ first.pass.failed ≠ [] ∧
      second.pass.statements = (config.retryPlan script.label).statements
        (first.pass.failed.map Statement.text) ∧
      (second.pass.statements = [] → later = [] ∧ ∃ summary, run.result = .ok summary ∧
        summary.isClean = true ∧ summary.retryStatus = some .resolved) := by
  obtain ⟨head, hhead, hbatch⟩ := harchived
  cases h with
  | once =>
      cases hhead
      cases hbatch
  | unarchived =>
      cases hhead
      cases hbatch
  | @retried after _ first batch files retried hpass hfailed _ harchive hretried hretry =>
      have hbatch : script.firstBatch config c w = (.ok batch, files) := by
        simp only [Script.firstBatch, hpass, harchive]
      rw [Script.ReadsBack, hbatch] at hreads
      have hread := (Archive.stores_of_archive harchive).read (hreads batch rfl)
      have hzero : (config.retryPlan script.label).maxAttempts ≠ 0 := fun hzero =>
        hattempts (UInt32.toNat_inj.1 hzero)
      have hmade := (config.retryPlan script.label).rounds_ne_nil (config.connection c)
        (w := { after with files }) hzero hread (by simpa using hfailed)
      rw [hretry] at hmade
      obtain ⟨second, later, hlater, hsecond, hnone⟩ := hretried.exists_round hmade
      refine ⟨⟨first, some batch⟩, second, later, by rw [hlater],
        Connection.statements_of_pass hpass, hfailed, hsecond, fun hempty => ?_⟩
      obtain ⟨hend, hresult⟩ := hnone (hsecond.symm.trans hempty)
      rw [hresult]
      exact ⟨hend, _, rfl, rfl, rfl⟩

/-- The first two passes of a run, the later ones, and the calls that were made in each of these. -/
structure Script.FirstTwo (script : Script) (config : Config) (c : Connection σ)
    (w : World (Resilient (Recorded σ))) (first second : Retry.Round) (later : List Retry.Round)
    (opening again rest : List Call) : Prop where
  rounds_eq : (script.run config c.recorded w).1.rounds = first :: second :: later
  calls_eq : (script.run config c.recorded w).2.session.inner.calls =
    w.session.inner.calls ++ (opening ++ (again ++ rest))
  opening : Exchanges (max 1 config.reconnectAttempts.toNat) first.pass.answers opening
  again : Exchanges (max 1 config.reconnectAttempts.toNat) second.pass.answers again
  rest : Exchanges (max 1 config.reconnectAttempts.toNat) (Retry.answers later) rest
  statements : first.pass.statements = (script.prepare config).statements
  failed_ne_nil : first.pass.failed ≠ []

/-- An archived first pass that is read back is followed by a round over the texts of its failures. -/
theorem Script.exists_firstTwo (script : Script) (config : Config) (c : Connection σ)
    (w : World (Resilient (Recorded σ))) (hattempts : config.maxAttempts ≠ 0)
    (harchived : (script.run config c.recorded w).1.Archived)
    (hreads : script.ReadsBack config c.recorded w) :
    ∃ first second later opening again rest,
      script.FirstTwo config c w first second later opening again rest ∧
      second.pass.statements = (config.retryPlan script.label).statements
        (first.pass.failed.map Statement.text) ∧
      (second.pass.statements = [] → later = [] ∧
        ∃ summary, (script.run config c.recorded w).1.result = .ok summary ∧
          summary.isClean = true ∧ summary.retryStatus = some .resolved) := by
  obtain ⟨first, second, later, hrounds, hfirst, hfailed, hsecond, hnone⟩ :=
    (script.ran_run config c.recorded w).exists_first_two hattempts harchived hreads
  obtain ⟨calls, hmade, hcalls⟩ := script.exists_exchanges config c w
  rw [hrounds, Retry.answers, List.flatMap_cons, List.flatMap_cons] at hcalls
  obtain ⟨opening, others, rfl, hopening, hothers⟩ := hcalls.exists_of_append
  obtain ⟨again, rest, rfl, hagain, hrest⟩ := hothers.exists_of_append
  exact ⟨first, second, later, opening, again, rest,
    ⟨hrounds, hmade, hopening, hagain, hrest, hfirst, hfailed⟩, hsecond, hnone⟩

/--
The first round hands over what a scan finds in the failures of the first pass. A failure gives
nothing to it if and only if its text is silent, which is never so for a scanned script that is not
rewritten. If all failures are silent, no call is made after those of the first pass, and the run ends
as one that is resolved.
-/
theorem Script.exists_first_round (script : Script) (config : Config) (c : Connection σ)
    (w : World (Resilient (Recorded σ))) (hattempts : config.maxAttempts ≠ 0)
    (hfilter : config.reapplyFilterOnRetry = false)
    (harchived : (script.run config c.recorded w).1.Archived)
    (hreads : script.ReadsBack config c.recorded w) :
    ∃ first second later opening again rest,
      script.FirstTwo config c w first second later opening again rest ∧
      second.pass.statements.map Statement.text =
        (first.pass.failed.flatMap fun s => (split s.text).map Statement.text) ∧
      (∀ text, text ∈ Call.texts again ↔
        ∃ s ∈ first.pass.failed, ∃ found ∈ split s.text, found.text = text) ∧
      (∀ s ∈ first.pass.failed, split s.text = [] ↔ IsSilent s.text) ∧
      (config.splitMode = .scan → config.stripPatterns = [] →
        ∀ s ∈ first.pass.failed, ¬ IsSilent s.text) ∧
      ((∀ s ∈ first.pass.failed, IsSilent s.text) → later = [] ∧ again ++ rest = [] ∧
        ∃ summary, (script.run config c.recorded w).1.result = .ok summary ∧
          summary.isClean = true ∧ summary.retryStatus = some .resolved) := by
  obtain ⟨first, second, later, opening, again, rest, htwo, hsecond, hnone⟩ :=
    script.exists_firstTwo config c w hattempts harchived hreads
  have hstatements : (config.retryPlan script.label).statements
      (first.pass.failed.map Statement.text) =
        Retry.statementsOf (first.pass.failed.map Statement.text) := by
    simp [Retry.Plan.statements, Config.retryPlan, hfilter]
  rw [hstatements] at hsecond
  have htexts : second.pass.statements.map Statement.text =
      (first.pass.failed.flatMap fun s => (split s.text).map Statement.text) := by
    rw [hsecond, Retry.map_text_statementsOf, List.flatMap_map]
  have hanswers : second.pass.answers.map (fun answer => answer.1.text) =
      second.pass.statements.map Statement.text := by
    rw [Pass.statements, List.map_map]
    rfl
  refine ⟨first, second, later, opening, again, rest, htwo, htexts, fun text => ?_,
    fun s _ => split_eq_nil_iff, ?_, ?_⟩
  · rw [htwo.again.mem_texts_iff, hanswers, htexts]
    simp only [List.mem_flatMap, List.mem_map]
  · intro hscan hpatterns s hs
    have hprepared := Pass.mem_statements_of_mem_failed hs
    rw [htwo.statements] at hprepared
    exact (Script.keeps_prepare hscan hpatterns hprepared).1.not_isSilent
  · intro hsilent
    have hempty : Retry.statementsOf (first.pass.failed.map Statement.text) = [] :=
      Retry.statementsOf_eq_nil_iff.2 (List.forall_mem_map.2 hsilent)
    obtain ⟨rfl, hsummary⟩ := hnone (hsecond.trans hempty)
    have hagain := htwo.again
    rw [Pass.eq_of_statements_eq_nil (hsecond.trans hempty)] at hagain
    exact ⟨rfl, by rw [hagain.eq_nil, htwo.rest.eq_nil, List.append_nil], hsummary⟩

/-- A comment that is cut off as a statement fails, is never run again, and counts as resolved. -/
theorem Script.resolved_without_comment :
    let config := { Config.default with splitMode := .delimiter '$', maxAttempts := 1 }
    let run := (Script.ofText "x" "-- note $ SELECT 1").run config Scripted.connection.recorded
      (watch (Scripted.world { Scripted.fresh with failing := ["-- note"] }))
    config.IsValid ∧ ∃ first second, run.1.rounds = [first, second] ∧
      first.pass.failed.map Statement.text = ["-- note"] ∧ second.pass.statements = [] ∧
      Call.texts run.2.session.inner.calls = ["-- note", "SELECT 1"] ∧
      ∃ summary, run.1.result = .ok summary ∧ summary.isClean = true ∧
        summary.retryStatus = some .resolved := by
  intro config
  obtain ⟨first, second, later, opening, again, rest, htwo, hsecond, -, -, -, hend⟩ :=
    Script.exists_first_round (Script.ofText "x" "-- note $ SELECT 1") config Scripted.connection
      (watch (Scripted.world { Scripted.fresh with failing := ["-- note"] })) (by decide) rfl
      (by decide +kernel) (by decide +kernel)
  have hrounds := htwo.rounds_eq
  have hrun :
      let run := (Script.ofText "x" "-- note $ SELECT 1").run config Scripted.connection.recorded
        (watch (Scripted.world { Scripted.fresh with failing := ["-- note"] }))
      run.1.rounds.head?.map (·.pass.failed) = some [⟨0, "-- note"⟩] ∧
        Call.texts run.2.session.inner.calls = ["-- note", "SELECT 1"] := by decide +kernel
  generalize (Script.ofText "x" "-- note $ SELECT 1").run config Scripted.connection.recorded
    (watch (Scripted.world { Scripted.fresh with failing := ["-- note"] })) = run
    at hend hrounds hrun ⊢
  obtain ⟨hfailed, hcalls⟩ := hrun
  rw [hrounds] at hfailed
  have hfirst : first.pass.failed = [⟨0, "-- note"⟩] := Option.some.inj hfailed
  have hsplit : split "-- note" = [] := by decide +kernel
  rw [hfirst] at hsecond hend
  obtain ⟨rfl, -, hsummary⟩ := hend (List.forall_mem_singleton.2 (split_eq_nil_iff.1 hsplit))
  refine ⟨by decide, first, second, hrounds, by rw [hfirst]; rfl, ?_, hcalls, hsummary⟩
  rw [List.flatMap_singleton, hsplit] at hsecond
  exact List.map_eq_nil_iff.1 hsecond

/--
Each failure of a scanned script that is not rewritten is handed over again in its place, without
the semicolons at its end. So the first round hands the failed texts over as they are if and only if
none of them ends in a semicolon.
-/
theorem Script.statements_first_round (script : Script) (config : Config) (c : Connection σ)
    (w : World (Resilient (Recorded σ))) (hscan : config.splitMode = .scan)
    (hpatterns : config.stripPatterns = []) (hattempts : config.maxAttempts ≠ 0)
    (harchived : (script.run config c.recorded w).1.Archived)
    (hreads : script.ReadsBack config c.recorded w) :
    ∃ first second later opening again rest,
      script.FirstTwo config c w first second later opening again rest ∧
      second.pass.statements =
        Statement.number (first.pass.failed.map fun s => Text.bare s.text) ∧
      (second.pass.statements.map Statement.text = first.pass.failed.map Statement.text ↔
        ∀ s ∈ first.pass.failed, s.text.toList.getLast? ≠ some ';') := by
  obtain ⟨first, second, later, opening, again, rest, htwo, hsecond, -⟩ :=
    script.exists_firstTwo config c w hattempts harchived hreads
  have hkeeps := Script.keeps_failed hscan hpatterns htwo.statements
  rw [Retry.Plan.statements_of_keeps (config.filtersBy_retryPlan script.label) hkeeps,
    List.map_map] at hsecond
  refine ⟨first, second, later, opening, again, rest, htwo, hsecond, ?_⟩
  rw [hsecond, Statement.map_text_number, List.map_inj_left]
  refine forall_congr' fun s => forall_congr' fun hs => ?_
  have hprepared := Pass.mem_statements_of_mem_failed hs
  rw [htwo.statements] at hprepared
  have hsplit := Script.mem_split_of_mem_prepare hscan hpatterns hprepared
  exact Text.bare_eq_self_iff (isTrimmed_of_mem_split hsplit)

/-- A literal semicolon at the end of a failed statement is not handed over again. -/
theorem Script.first_round_without_semicolon :
    let config := { Config.default with maxAttempts := 1 }
    let run := (Script.ofText "x" "SELECT 1 -;;").run config Scripted.connection.recorded
      (watch (Scripted.world { Scripted.fresh with failing := ["SELECT 1 -;"] }))
    config.IsValid ∧ Call.texts run.2.session.inner.calls = ["SELECT 1 -;", "SELECT 1 -"] ∧
      ∃ first second later, run.1.rounds = first :: second :: later ∧
        first.pass.failed.map Statement.text = ["SELECT 1 -;"] ∧
        second.pass.statements.map Statement.text = ["SELECT 1 -"] := by
  intro config
  obtain ⟨first, second, later, opening, again, rest, htwo, hsecond, -⟩ :=
    Script.statements_first_round (Script.ofText "x" "SELECT 1 -;;") config Scripted.connection
      (watch (Scripted.world { Scripted.fresh with failing := ["SELECT 1 -;"] })) rfl rfl (by decide)
      (by decide +kernel) (by decide +kernel)
  have hrounds := htwo.rounds_eq
  have hrun :
      let run := (Script.ofText "x" "SELECT 1 -;;").run config Scripted.connection.recorded
        (watch (Scripted.world { Scripted.fresh with failing := ["SELECT 1 -;"] }))
      run.1.rounds.head?.map (·.pass.failed) = some [⟨0, "SELECT 1 -;"⟩] ∧
        Call.texts run.2.session.inner.calls = ["SELECT 1 -;", "SELECT 1 -"] := by decide +kernel
  generalize (Script.ofText "x" "SELECT 1 -;;").run config Scripted.connection.recorded
    (watch (Scripted.world { Scripted.fresh with failing := ["SELECT 1 -;"] })) = run
    at hrounds hrun ⊢
  obtain ⟨hfailed, hcalls⟩ := hrun
  rw [hrounds] at hfailed
  have hfirst : first.pass.failed = [⟨0, "SELECT 1 -;"⟩] := Option.some.inj hfailed
  have hbare : Text.bare "SELECT 1 -;" = "SELECT 1 -" := by decide +kernel
  refine ⟨by decide, hcalls, first, second, later, hrounds, by rw [hfirst]; rfl, ?_⟩
  rw [hsecond, Statement.map_text_number, hfirst, List.map_singleton, hbare]

end SqlScript
