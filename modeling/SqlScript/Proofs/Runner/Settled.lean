import SqlScript.Proofs.Connection.Files
import SqlScript.Proofs.Connection.Steady
import SqlScript.Proofs.Runner.Accounting
import SqlScript.Proofs.Scan.Ends

/-!
# Ordering failures

Over a steady session a run gets all statements accepted that are feasible, in whatever order the
script has them. A pass that leaves feasible statements has accepted one: otherwise what was
executed would be closed under what it enables. So every round counts down the feasible statements
that are left, and as many rounds as there are statements settle a script:
`Script.executed_perm_feasible`.
-/

namespace SqlScript

variable {σ : Type}

namespace Scripted

variable {s : Scripted} {texts executed left : List String} {attempts rounds : Nat}

noncomputable instance : DecidablePred (s.Feasible texts) := Classical.decPred _

/-- Feasible texts were executed, and those that are left are no more than the rounds. -/
structure Progress (s : Scripted) (texts executed left : List String) (rounds : Nat) : Prop where
  perm : (executed ++ left).Perm texts
  sublist : left.Sublist texts
  feasible : ∀ text ∈ executed, s.Feasible texts text
  enough : left.countP (fun text => s.Feasible texts text) ≤ rounds

theorem Progress.start (s : Scripted) (texts : List String) :
    s.Progress texts [] texts texts.length where
  perm := .refl _
  sublist := .refl _
  feasible := by simp
  enough := List.countP_le_length

theorem Progress.mono (h : s.Progress texts executed left rounds) {more : Nat}
    (hle : rounds ≤ more) : s.Progress texts executed left more :=
  ⟨h.perm, h.sublist, h.feasible, h.enough.trans hle⟩

theorem Progress.of_eq_nil (h : s.Progress texts executed left rounds) (hnil : left = []) :
    s.Progress texts executed left 0 := by
  refine ⟨h.perm, h.sublist, h.feasible, ?_⟩
  rw [hnil]
  exact Nat.le_refl 0

theorem Progress.not_feasible (h : s.Progress texts executed left 0) :
    ∀ text ∈ left, ¬ s.Feasible texts text := by
  have hnone := List.countP_eq_zero.1 (Nat.le_zero.1 h.enough)
  intro text hmem
  simpa using hnone text hmem

/-- If no more rounds are needed, the executed texts are the feasible ones. -/
theorem Progress.eq_filter (h : s.Progress texts executed left 0) :
    executed.Perm (texts.filter fun text => s.Feasible texts text) ∧
      left = texts.filter fun text => ¬ s.Feasible texts text := by
  have hexecuted : executed.filter (fun text => ¬ s.Feasible texts text) = [] :=
    List.filter_eq_nil_iff.2 fun text hmem => by simpa using h.feasible text hmem
  have hleft : left.filter (fun text => ¬ s.Feasible texts text) = left :=
    List.filter_eq_self.2 fun text hmem => by simpa using h.not_feasible text hmem
  have hdone : executed.filter (fun text => s.Feasible texts text) = executed :=
    List.filter_eq_self.2 fun text hmem => by simpa using h.feasible text hmem
  have hrest : left.filter (fun text => s.Feasible texts text) = [] :=
    List.filter_eq_nil_iff.2 fun text hmem => by simpa using h.not_feasible text hmem
  constructor
  · have hperm := h.perm.filter fun text => s.Feasible texts text
    rwa [List.filter_append, hdone, hrest, List.append_nil] at hperm
  · have hperm := h.perm.filter fun text => ¬ s.Feasible texts text
    rw [List.filter_append, hexecuted, hleft, List.nil_append] at hperm
    have hsublist := h.sublist.filter fun text => ¬ s.Feasible texts text
    rw [hleft] at hsublist
    exact hsublist.eq_of_length hperm.length_eq

/-- If none of what is left is accepted, the executed texts are closed and nothing is feasible. -/
theorem Progress.not_feasible_of_rejected (h : s.Progress texts executed left rounds)
    (hrejected : ∀ text ∈ left, s.accepts executed text = false) :
    ∀ text ∈ left, ¬ s.Feasible texts text := by
  have hclosed : ∀ text ∈ texts, s.accepts executed text = true → text ∈ executed := by
    intro text htext haccepts
    rcases List.mem_append.1 (h.perm.mem_iff.2 htext) with hdone | hleft
    · exact hdone
    · rw [hrejected text hleft] at haccepts
      cases haccepts
  intro text hmem hfeasible
  have haccepts := hfeasible.accepts hclosed
  rw [hrejected text hmem] at haccepts
  cases haccepts

/-- A scripted session may change files, and not which of them can be read. -/
theorem carries_hides : Resilient.Carries connection fun w after =>
    after.files.hides = w.files.hides where
  refl _ := rfl
  trans h h' := h'.trans h
  count h := h
  execute sql w := by
    simp only [Resilient.onInner, connection, call]
    split <;> exact FileTree.hides_changes _ _
  disconnect w := by
    simp only [Resilient.onInner, connection, disconnect]
    split_ifs <;> rfl
  reconnect w := by
    simp only [Resilient.onInner, connection, reconnect]
    split_ifs <;> rfl

theorem hides_of_pass {statements : List Statement} {w after : World (Resilient Scripted)}
    {pass : Pass} (hpass : (connection.resilient attempts).pass statements w = (pass, after)) :
    after.files.hides = w.files.hides := by
  have hides := carries_hides.rel_pass attempts statements w
  rwa [hpass] at hides

/-- A pass executes feasible statements only, and one of them if one is left. -/
theorem Progress.of_pass (hs : s.IsSteady) {statements : List Statement}
    (h : s.Progress texts executed (statements.map Statement.text) (rounds + 1))
    {w after : World (Resilient Scripted)} (hw : s.HasExecuted executed w.session.inner)
    {pass : Pass} (hpass : (connection.resilient attempts).pass statements w = (pass, after)) :
    ∃ later, s.HasExecuted later after.session.inner ∧
      s.Progress texts later (pass.failed.map Statement.text) rounds := by
  have hmem : ∀ t ∈ statements, t.text ∈ texts := fun t ht =>
    h.sublist.subset (List.mem_map_of_mem ht)
  obtain ⟨hexecuted, haccepted, hfailed⟩ :=
    pass_of_hasExecuted attempts hs hmem hw h.feasible
  rw [hpass] at hexecuted haccepted hfailed
  have hstatements := Connection.statements_of_pass hpass
  have hparts : (pass.accepted.map Statement.text ++ pass.failed.map Statement.text).Perm
      (statements.map Statement.text) := by
    rw [← List.map_append, ← hstatements]
    exact pass.perm.map _
  refine ⟨_, hexecuted, ?_, ?_, ?_, ?_⟩
  · rw [List.append_assoc]
    exact (hparts.append_left _).trans h.perm
  · have hsublist := pass.failed_sublist
    rw [hstatements] at hsublist
    exact (hsublist.map _).trans h.sublist
  · rw [List.forall_mem_append, List.forall_mem_map]
    exact ⟨h.feasible, haccepted⟩
  have hcount := hparts.countP_eq fun text => s.Feasible texts text
  have hall : (pass.accepted.map Statement.text).countP (fun text => s.Feasible texts text) =
      pass.accepted.length := by
    rw [List.countP_eq_length.2 (by simpa using haccepted), List.length_map]
  rw [List.countP_append, hall] at hcount
  have henough := h.enough
  by_cases hnone : pass.accepted = []
  · -- Nothing was accepted, so everything that is left was rejected at the start of the pass.
    rw [hnone, List.map_nil, List.nil_append] at hparts
    have hrejected : ∀ text ∈ statements.map Statement.text, s.accepts executed text = false := by
      intro text hmem
      obtain ⟨t, ht, rfl⟩ := List.mem_map.1 (hparts.mem_iff.2 hmem)
      exact hfailed t ht
    have hzero :
        (pass.failed.map Statement.text).countP (fun text => s.Feasible texts text) = 0 := by
      rw [List.countP_eq_zero]
      intro text hmem
      simpa using h.not_feasible_of_rejected hrejected text (hparts.mem_iff.1 hmem)
    omega
  · have hsome : 0 < pass.accepted.length := List.length_pos_iff.2 hnone
    omega

end Scripted

open Scripted

namespace Retry

/-- What a round left is archived. -/
def Round.IsKept (round : Round) : Prop := round.pass.failed ≠ [] → round.batch.isSome = true

instance (round : Round) : Decidable round.IsKept :=
  inferInstanceAs (Decidable (round.pass.failed ≠ [] → round.batch.isSome = true))

/-- Enough rounds that are all archived and read end with a report and with nothing feasible left. -/
theorem Plan.Ran.exists_progress {p : Plan} {leads prepared executed texts : List String}
    {s : Scripted} {attempts left : Nat} {counter : Counter} {folded : Option Outcome}
    {w last : World (Resilient Scripted)} {run : Run}
    (h : p.Ran (connection.resilient attempts) left counter folded texts w run last)
    (hs : s.IsSteady) (hfilters : p.FiltersBy leads) (hkeeps : Keeps leads texts)
    (hbare : ∀ text ∈ texts, Text.bare text = text)
    (hfolded : ∀ outcome ∈ folded, outcome.failed.map Statement.text = texts)
    (hkept : ∀ round ∈ run.rounds, round.IsKept) (hreadable : ∀ place, w.files.hides place = none)
    (hw : s.HasExecuted executed w.session.inner)
    (hprogress : s.Progress prepared executed texts left) :
    ∃ report later, run.result = .ok report ∧ s.HasExecuted later last.session.inner ∧
      s.Progress prepared later (report.outcome.failed.map Statement.text) 0 := by
  induction h generalizing executed with
  | @noneLeft left counter folded w =>
      have hfailed : (folded.getD .empty).failed.map Statement.text = [] := by
        cases folded with
        | none => rfl
        | some outcome => exact hfolded outcome rfl
      rw [← hfailed] at hprogress
      exact ⟨_, executed, rfl, hw, hprogress.of_eq_nil hfailed⟩
  | unread hne stores hread =>
      cases hread.symm.trans (stores.read fun entry _ => hreadable _)
  | @exhausted counter folded texts w batch hne stores =>
      refine ⟨_, executed, rfl, hw, ?_⟩
      cases folded with
      | none =>
          have hstatements := Plan.map_text_statements hfilters hkeeps hbare
          rw [← hstatements] at hprogress
          exact hprogress
      | some outcome =>
          rw [← hfolded outcome rfl] at hprogress
          exact hprogress
  | @clean left counter folded texts w after pass hne hpass hclean =>
      rw [← Plan.map_text_statements hfilters hkeeps hbare] at hprogress
      obtain ⟨later, hlater, hafter⟩ := hprogress.of_pass hs hw hpass
      refine ⟨_, later, rfl, hlater, ?_⟩
      rw [failed_fold]
      exact hafter.of_eq_nil (List.map_eq_nil_iff.2 hclean)
  | unarchived hne hpass hfailed harchive =>
      have hbatch := hkept _ (List.mem_singleton_self _) hfailed
      cases hbatch
  | @again left counter folded texts w after last pass next files later hne hpass hfailed
      harchive stores rest ih =>
      have hstatements := Plan.map_text_statements hfilters hkeeps hbare
      rw [← hstatements] at hprogress
      obtain ⟨done, hdone, hafter⟩ := hprogress.of_pass hs hw hpass
      have hbare : ∀ text ∈ pass.failed.map Statement.text, Text.bare text = text := by
        intro text hmem
        obtain ⟨t, ht, rfl⟩ := List.mem_map.1 hmem
        have ht := Pass.mem_statements_of_mem_failed ht
        rw [Connection.statements_of_pass hpass] at ht
        have htext := List.mem_map_of_mem (f := Statement.text) ht
        rw [hstatements] at htext
        exact hbare _ htext
      have hlater : ∀ place, files.hides place = none := fun place => by
        rw [Archive.hides_of_archive harchive, hides_of_pass hpass]
        exact hreadable place
      exact ih (hkeeps.failed hfilters (Connection.statements_of_pass hpass)) hbare
        (by simp [failed_fold, Pass.outcome])
        (fun round hround => hkept round (List.mem_cons_of_mem _ hround)) hlater hdone hafter

end Retry

namespace Script

variable {script : Script} {config : Config} {w last : World (Resilient Scripted)} {run : Run}

/-- The texts of a script's statements once it is prepared. -/
def preparedTexts (script : Script) (config : Config) : List String :=
  (script.prepare config).statements.map Statement.text

/--
A scanned script that is not rewritten and a steady session: failures are archived and nothing is kept
from being read, there may be as many rounds as there are statements, and none of these ends in a
semicolon.
-/
structure CanSettle (script : Script) (config : Config) (w : World (Resilient Scripted)) :
    Prop where
  scan : config.splitMode = .scan
  patterns : config.stripPatterns = []
  archives : config.archiveFailures = true
  rounds : (script.preparedTexts config).length ≤ config.maxAttempts.toNat
  ends : ∀ text ∈ script.preparedTexts config, text.toList.getLast? ≠ some ';'
  kept : ∀ round ∈ (script.run config connection w).1.rounds, round.IsKept
  readable : ∀ place, w.files.hides place = none
  steady : w.session.inner.IsSteady
  fresh : w.session.inner.executed = []

theorem CanSettle.bare_eq (h : script.CanSettle config w) {text : String}
    (hmem : text ∈ script.preparedTexts config) : Text.bare text = text := by
  obtain ⟨t, ht, rfl⟩ := List.mem_map.1 hmem
  have htrimmed := isTrimmed_of_mem_split (mem_split_of_mem_prepare h.scan h.patterns ht)
  exact (Text.bare_eq_self_iff htrimmed).2 (h.ends t.text hmem)

theorem Ran.exists_progress (hran : script.Ran config connection w run last)
    (hkept : ∀ round ∈ run.rounds, round.IsKept) (h : script.CanSettle config w) :
    ∃ summary executed, run.result = .ok summary ∧
      w.session.inner.HasExecuted executed last.session.inner ∧
      w.session.inner.Progress (script.preparedTexts config) executed
        (summary.outcome.failed.map Statement.text) 0 := by
  have hw : w.session.inner.HasExecuted [] w.session.inner := ⟨_, by rw [← h.fresh]⟩
  have hstart := (Progress.start w.session.inner (script.preparedTexts config)).mono
    (h.rounds.trans (Nat.le_succ _))
  cases hran with
  | @once after first hpass hends =>
      obtain ⟨executed, hexecuted, hprogress⟩ := hstart.of_pass h.steady hw hpass
      have hclean : first.failed = [] := hends.resolve_right (by simp [h.archives])
      exact ⟨_, executed, rfl, hexecuted, hprogress.of_eq_nil (List.map_eq_nil_iff.2 hclean)⟩
  | unarchived hpass hfailed harchives harchive =>
      have hbatch := hkept _ (List.mem_singleton_self _) hfailed
      cases hbatch
  | @retried after last first batch files retried hpass hfailed harchives harchive hretried =>
      obtain ⟨executed, hexecuted, hprogress⟩ := hstart.of_pass h.steady hw hpass
      have hfirst := Connection.statements_of_pass hpass
      have hbare : ∀ text ∈ first.failed.map Statement.text, Text.bare text = text :=
        fun text hmem => h.bare_eq (hprogress.sublist.subset hmem)
      have hlater : ∀ round ∈ retried.rounds, round.IsKept := fun round hround =>
        hkept round (List.mem_cons_of_mem _ hround)
      have hfiles : ∀ place, files.hides place = none := fun place => by
        rw [Archive.hides_of_archive harchive, hides_of_pass hpass]
        exact h.readable place
      obtain ⟨report, later, hreport, hlast, hafter⟩ :=
        hretried.exists_progress h.steady (config.filtersBy_retryPlan script.label)
          (keeps_failed h.scan h.patterns hfirst) hbare (by simp) hlater hfiles hexecuted hprogress
      rw [hreport]
      exact ⟨_, later, rfl, hlast, hafter⟩

theorem CanSettle.exists_progress (h : script.CanSettle config w) :
    ∃ summary, (script.run config connection w).1.result = .ok summary ∧
      w.session.inner.Progress (script.preparedTexts config)
        (script.run config connection w).2.session.inner.executed
        (summary.outcome.failed.map Statement.text) 0 := by
  obtain ⟨summary, executed, hresult, ⟨calls, hlast⟩, hprogress⟩ :=
    (script.ran_run config connection w).exists_progress h.kept h
  refine ⟨summary, hresult, ?_⟩
  rw [hlast]
  exact hprogress

/--
Exactly the feasible statements are executed, each once, and the others are the failures, in the
order of the script. So what is executed does not depend on the order of the statements.
-/
theorem executed_perm_feasible (h : script.CanSettle config w) :
    (script.run config connection w).2.session.inner.executed.Perm
        ((script.preparedTexts config).filter fun text =>
          w.session.inner.Feasible (script.preparedTexts config) text) ∧
      (∃ summary, (script.run config connection w).1.result = .ok summary ∧
        summary.outcome.failed.map Statement.text =
          (script.preparedTexts config).filter fun text =>
            ¬ w.session.inner.Feasible (script.preparedTexts config) text) ∧
      ∀ (other : Script) (otherConfig : Config) (otherWorld : World (Resilient Scripted)),
        other.CanSettle otherConfig otherWorld → otherWorld.session.inner = w.session.inner →
        (script.preparedTexts config).Perm (other.preparedTexts otherConfig) →
        (script.run config connection w).2.session.inner.executed.Perm
          (other.run otherConfig connection otherWorld).2.session.inner.executed := by
  obtain ⟨summary, hresult, hprogress⟩ := h.exists_progress
  obtain ⟨hexecuted, hfailed⟩ := hprogress.eq_filter
  refine ⟨hexecuted, ⟨summary, hresult, hfailed⟩, ?_⟩
  intro other otherConfig otherWorld hother hsession htexts
  obtain ⟨_, _, hotherProgress⟩ := hother.exists_progress
  rw [hsession] at hotherProgress
  have hotherExecuted := hotherProgress.eq_filter.1
  -- What is feasible depends on which texts there are and not on their order.
  have hsame : ∀ text, w.session.inner.Feasible (script.preparedTexts config) text ↔
      w.session.inner.Feasible (other.preparedTexts otherConfig) text := fun text =>
    ⟨.of_subset htexts.subset, .of_subset htexts.symm.subset⟩
  simp only [hsame] at hexecuted
  exact hexecuted.trans ((htexts.filter _).trans hotherExecuted.symm)

/-- A statement that needs a later one is executed after it, and one that needs itself never. -/
theorem executed_perm_feasible_of_loop :
    let session := { Scripted.fresh with requires := [("INSERT", "CREATE"), ("LOOP", "LOOP")] }
    let config := { Config.default with maxAttempts := 3 }
    let run := (Script.ofText "x" "INSERT;LOOP;CREATE").run config connection
      (Scripted.world session)
    config.IsValid ∧ run.2.session.inner.executed.Perm ["INSERT", "CREATE"] ∧
      ∃ summary, run.1.result = .ok summary ∧
        summary.outcome.failed.map Statement.text = ["LOOP"] := by
  intro session config
  have htexts : (Script.ofText "x" "INSERT;LOOP;CREATE").preparedTexts config =
      ["INSERT", "LOOP", "CREATE"] := by decide +kernel
  have hkept : ∀ round ∈ ((Script.ofText "x" "INSERT;LOOP;CREATE").run config connection
      (Scripted.world session)).1.rounds, round.IsKept := by decide +kernel
  have hsteady : session.IsSteady := ⟨rfl, rfl, rfl, rfl, fun e he => by cases he⟩
  have hlaw := @executed_perm_feasible (Script.ofText "x" "INSERT;LOOP;CREATE") config
    (Scripted.world session)
    { scan := rfl
      patterns := rfl
      archives := rfl
      rounds := by rw [htexts]; decide
      ends := by rw [htexts]; decide
      kept := hkept
      readable := fun _ => rfl
      steady := hsteady
      fresh := rfl }
  have hinner : (Scripted.world session).session.inner = session := rfl
  rw [htexts, hinner] at hlaw
  have hcreate : session.Feasible ["INSERT", "LOOP", "CREATE"] "CREATE" :=
    .intro (by decide) (by decide +kernel) fun needed hneeded => by cases hneeded
  have hinsert : session.Feasible ["INSERT", "LOOP", "CREATE"] "INSERT" := by
    refine .intro (by decide) (by decide +kernel) fun needed hneeded => ?_
    cases hneeded
    exact hcreate
  have hloop : ¬ session.Feasible ["INSERT", "LOOP", "CREATE"] "LOOP" := by
    intro h
    -- The other two are closed under what they enable, and do not enable this one.
    have hclosed : ∀ text ∈ ["INSERT", "LOOP", "CREATE"],
        session.accepts ["INSERT", "CREATE"] text = true → text ∈ ["INSERT", "CREATE"] := by
      decide +kernel
    exact absurd (h.accepts hclosed) (by decide +kernel)
  generalize (Script.ofText "x" "INSERT;LOOP;CREATE").run config connection
    (Scripted.world session) = run at hlaw ⊢
  obtain ⟨hexecuted, ⟨summary, hresult, hfailed⟩, -⟩ := hlaw
  refine ⟨by decide, ?_, summary, hresult, ?_⟩
  · simpa [hcreate, hinsert, hloop] using hexecuted
  · simpa [hcreate, hinsert, hloop] using hfailed

end Script

end SqlScript
