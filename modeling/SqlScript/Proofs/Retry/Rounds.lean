import SqlScript.Proofs.Archive.ReadBack
import SqlScript.Retry

/-!
# Retry rounds

Every way in which the rounds from a batch on can go, for a batch that stores some texts, whether or
not each of its reads succeeds: `ran_rounds`. Whatever holds of all rounds or of the report is an
induction on `Plan.Ran`.
-/

namespace SqlScript

variable {σ : Type}

theorem Connection.statements_of_pass {c : Connection σ} {statements : List Statement}
    {w after : World σ} {pass : Pass} (h : c.pass statements w = (pass, after)) :
    pass.statements = statements := by
  rw [← c.statements_pass statements w, h]

namespace Retry

/-- How one round over some statements can go: its pass, its answer and the world it left. -/
inductive Plan.RanRound (p : Plan) (c : Connection σ) (statements : List Statement) (w : World σ) :
    Pass × Except ScriptError (Option Archive.Batch) × World σ → Prop
  | clean {after : World σ} {pass : Pass} (hpass : c.pass statements w = (pass, after))
      (hclean : pass.failed = []) : RanRound p c statements w (pass, .ok none, after)
  | unarchived {after : World σ} {pass : Pass} {e : ScriptError} {files : FileTree}
      (hpass : c.pass statements w = (pass, after)) (hfailed : pass.failed ≠ [])
      (harchive : p.archiver.archive pass.failed p.label after.now after.files =
        (.error e, files)) :
      RanRound p c statements w (pass, .error e, { after with files })
  | archived {after : World σ} {pass : Pass} {next : Archive.Batch} {files : FileTree}
      (hpass : c.pass statements w = (pass, after)) (hfailed : pass.failed ≠ [])
      (harchive : p.archiver.archive pass.failed p.label after.now after.files =
        (.ok next, files))
      (stores : next.Stores files (pass.failed.map Statement.text)) :
      RanRound p c statements w (pass, .ok (some next), { after with files })

/--
The rounds over some archived texts, with `left` of them still allowed: what they did and the world
they left. A round that leaves failures archives them, and the next one starts from their texts, if
they can be read.
-/
inductive Plan.Ran (p : Plan) (c : Connection σ) : Nat → Counter → Option Outcome → List String →
    World σ → Run → World σ → Prop
  | noneLeft {left : Nat} {counter : Counter} {folded : Option Outcome} {w : World σ} :
      Ran p c left counter folded [] w (resolved counter (folded.getD .empty)) w
  | unread {left : Nat} {counter : Counter} {folded : Option Outcome} {texts : List String}
      {w : World σ} {batch : Archive.Batch} {e : ScriptError} (hne : texts ≠ [])
      (stores : batch.Stores w.files texts) (hread : batch.read w.files = .error e) :
      Ran p c left counter folded texts w ⟨[], .error e⟩ w
  | exhausted {counter : Counter} {folded : Option Outcome} {texts : List String} {w : World σ}
      {batch : Archive.Batch} (hne : texts ≠ []) (stores : batch.Stores w.files texts) :
      Ran p c 0 counter folded texts w
        ⟨[], .ok ⟨folded.getD (.allFailed (p.statements texts)), counter, .exhausted,
          some batch⟩⟩ w
  | clean {left : Nat} {counter : Counter} {folded : Option Outcome} {texts : List String}
      {w after : World σ} {pass : Pass} (hne : texts ≠ [])
      (hpass : c.pass (p.statements texts) w = (pass, after)) (hclean : pass.failed = []) :
      Ran p c (left + 1) counter folded texts w
        ⟨[⟨pass, none⟩], .ok ⟨fold folded pass.outcome, counter.next, .resolved, none⟩⟩ after
  | unarchived {left : Nat} {counter : Counter} {folded : Option Outcome} {texts : List String}
      {w after : World σ} {pass : Pass} {e : ScriptError} {files : FileTree} (hne : texts ≠ [])
      (hpass : c.pass (p.statements texts) w = (pass, after)) (hfailed : pass.failed ≠ [])
      (harchive : p.archiver.archive pass.failed p.label after.now after.files =
        (.error e, files)) :
      Ran p c (left + 1) counter folded texts w ⟨[⟨pass, none⟩], .error e⟩ { after with files }
  | again {left : Nat} {counter : Counter} {folded : Option Outcome} {texts : List String}
      {w after last : World σ} {pass : Pass} {next : Archive.Batch} {files : FileTree}
      {later : Run} (hne : texts ≠ [])
      (hpass : c.pass (p.statements texts) w = (pass, after)) (hfailed : pass.failed ≠ [])
      (harchive : p.archiver.archive pass.failed p.label after.now after.files =
        (.ok next, files))
      (stores : next.Stores files (pass.failed.map Statement.text))
      (rest : Ran p c left counter.next (some (fold folded pass.outcome))
        (pass.failed.map Statement.text) { after with files } later last) :
      Ran p c (left + 1) counter folded texts w
        { later with rounds := ⟨pass, some next⟩ :: later.rounds } last

theorem isClean_outcome_iff {pass : Pass} : pass.outcome.isClean = true ↔ pass.failed = [] := by
  rw [Outcome.isClean, Pass.outcome, List.isEmpty_iff]

namespace Plan

theorem load_of_read {p : Plan} {t : FileTree} {batch : Archive.Batch} {texts : List String}
    (reads : batch.read t = .ok texts) : p.load t batch = .ok (p.statements texts) := by
  rw [load, reads]

theorem load_of_read_error {p : Plan} {t : FileTree} {batch : Archive.Batch} {e : ScriptError}
    (h : batch.read t = .error e) : p.load t batch = .error e := by
  rw [load, h]

theorem ran_round (p : Plan) (c : Connection σ) (statements : List Statement) (w : World σ) :
    p.RanRound c statements w (p.round c statements w) := by
  rcases hpass : c.pass statements w with ⟨pass, after⟩
  simp only [round, hpass]
  by_cases hclean : pass.failed = []
  · rw [if_pos (isClean_outcome_iff.2 hclean)]
    exact .clean hpass hclean
  rw [if_neg fun h => hclean (isClean_outcome_iff.1 h)]
  rcases harchive : p.archiver.archive pass.failed p.label after.now after.files with
    ⟨answer, files⟩
  cases answer with
  | error e => exact .unarchived hpass hclean harchive
  | ok next =>
      -- Nothing happens to the files between writing a batch and reading it.
      exact .archived hpass hclean harchive (Archive.stores_of_archive harchive)

theorem ran_exhausted (p : Plan) (c : Connection σ) (counter : Counter) (folded : Option Outcome)
    {batch : Archive.Batch} {texts : List String} {w : World σ} (hne : texts ≠ [])
    (stores : batch.Stores w.files texts) :
    p.Ran c 0 counter folded texts w (p.exhausted w.files counter batch folded) w := by
  cases folded with
  | some outcome => exact .exhausted hne stores
  | none =>
      rw [Plan.exhausted]
      cases hread : batch.read w.files with
      | error e =>
          simp only [load_of_read_error hread]
          exact .unread hne stores hread
      | ok found =>
          obtain rfl := stores.eq_of_read hread
          simp only [load_of_read hread]
          exact .exhausted hne stores

theorem ran_rounds (p : Plan) (c : Connection σ) (left : Nat) (counter : Counter)
    (folded : Option Outcome) {batch : Archive.Batch} {texts : List String} {w : World σ}
    (stores : batch.Stores w.files texts) :
    p.Ran c left counter folded texts w (p.rounds c left counter batch folded w).1
      (p.rounds c left counter batch folded w).2 := by
  induction left generalizing counter folded batch texts w with
  | zero =>
      by_cases hne : texts = []
      · subst hne
        rw [rounds, if_pos (stores.isEmpty_iff.2 rfl)]
        exact .noneLeft
      · rw [rounds, if_neg fun h => hne (stores.isEmpty_iff.1 h)]
        exact p.ran_exhausted c counter folded hne stores
  | succ left ih =>
      by_cases hne : texts = []
      · subst hne
        rw [rounds, if_pos (stores.isEmpty_iff.2 rfl)]
        exact .noneLeft
      rw [rounds, if_neg fun h => hne (stores.isEmpty_iff.1 h)]
      cases hread : batch.read w.files with
      | error e =>
          simp only [load_of_read_error hread]
          exact .unread hne stores hread
      | ok found =>
          obtain rfl := stores.eq_of_read hread
          simp only [load_of_read hread]
          have hround := p.ran_round c (p.statements found) w
          generalize p.round c (p.statements found) w = ran at hround ⊢
          cases hround with
          | clean hpass hclean => exact .clean hne hpass hclean
          | unarchived hpass hfailed harchive => exact .unarchived hne hpass hfailed harchive
          | archived hpass hfailed harchive hstores =>
              exact .again hne hpass hfailed harchive hstores (ih _ _ hstores)

theorem ran_retry (p : Plan) (c : Connection σ) {batch : Archive.Batch} {texts : List String}
    {w : World σ} (stores : batch.Stores w.files texts) :
    p.Ran c p.maxAttempts (.ofLimit p.maxAttempts) none texts w (p.retry c batch w).1
      (p.retry c batch w).2 :=
  p.ran_rounds c p.maxAttempts _ none stores

/-- Nothing is retried of a batch that cannot be read. -/
theorem retry_of_read_error (p : Plan) (c : Connection σ) {batch : Archive.Batch} {w : World σ}
    {e : ScriptError} (h : batch.read w.files = .error e) :
    p.retry c batch w = (⟨[], .error e⟩, w) := by
  have hne : ¬ batch.isEmpty = true := by
    intro hempty
    rw [Archive.Batch.read, List.isEmpty_iff.1 hempty] at h
    cases h
  rw [retry]
  cases p.maxAttempts with
  | zero => simp only [rounds, if_neg hne, exhausted, load_of_read_error h]
  | succ left => simp only [rounds, if_neg hne, load_of_read_error h]

/-- What is reported on began with a batch that reads back some texts. -/
theorem exists_texts_of_retry {p : Plan} {c : Connection σ} {batch : Archive.Batch} {w : World σ}
    {report : Report} (h : (p.retry c batch w).1.result = .ok report) :
    ∃ texts, batch.read w.files = .ok texts := by
  cases hread : batch.read w.files with
  | error e =>
      rw [p.retry_of_read_error c hread] at h
      cases h
  | ok texts => exact ⟨texts, rfl⟩

end Plan

/-- The statements that were accepted in some rounds, in order. -/
def accepted (rounds : List Round) : List Statement := rounds.flatMap fun round => round.pass.accepted

/-- The successes of the rounds before, none if there were none. -/
def succeededBefore (folded : Option Outcome) : Nat := folded.elim 0 Outcome.succeeded

theorem succeeded_fold (folded : Option Outcome) (pass : Pass) :
    (Plan.fold folded pass.outcome).succeeded = succeededBefore folded + pass.accepted.length := by
  cases folded with
  | none => simp [Plan.fold, succeededBefore, Pass.outcome]
  | some before => simp [Plan.fold, succeededBefore, Outcome.andThen, Pass.outcome]

theorem failed_fold (folded : Option Outcome) (outcome : Outcome) :
    (Plan.fold folded outcome).failed = outcome.failed := by
  cases folded <;> rfl

theorem isBalanced_fold (folded : Option Outcome) (pass : Pass) :
    (Plan.fold folded pass.outcome).IsBalanced := by
  cases folded with
  | none => exact pass.isBalanced_outcome
  | some before => exact Outcome.isBalanced_andThen before pass.isBalanced_outcome

namespace Plan.Ran

variable {p : Plan} {c : Connection σ} {left : Nat} {counter : Counter} {folded : Option Outcome}
  {texts : List String} {w last : World σ} {run : Run}

/--
Every round runs the statements of some texts. They keep what is true of the texts at first and
passes from the texts of a round to those of its failures.
-/
theorem exists_statements (h : p.Ran c left counter folded texts w run last)
    (inv : List String → Prop) (hstart : inv texts)
    (hstep : ∀ texts (pass : Pass), inv texts → pass.statements = p.statements texts →
      inv (pass.failed.map Statement.text)) :
    ∀ round ∈ run.rounds, ∃ texts, inv texts ∧ round.pass.statements = p.statements texts := by
  induction h with
  | noneLeft => exact fun round hmem => by simp [resolved] at hmem
  | unread => exact fun round hmem => by simp at hmem
  | exhausted => exact fun round hmem => by simp at hmem
  | clean hne hpass hclean =>
      intro round hmem
      rw [List.mem_singleton.1 hmem]
      exact ⟨_, hstart, Connection.statements_of_pass hpass⟩
  | unarchived hne hpass hfailed harchive =>
      intro round hmem
      rw [List.mem_singleton.1 hmem]
      exact ⟨_, hstart, Connection.statements_of_pass hpass⟩
  | again hne hpass hfailed harchive stores rest ih =>
      intro round hmem
      rcases List.mem_cons.1 hmem with rfl | hmem
      · exact ⟨_, hstart, Connection.statements_of_pass hpass⟩
      · exact ih (hstep _ _ hstart (Connection.statements_of_pass hpass)) round hmem

/-- The report counts what the rounds did. -/
theorem outcome_eq (h : p.Ran c left counter folded texts w run last)
    (hbalanced : ∀ outcome ∈ folded, outcome.IsBalanced) {report : Report}
    (hreport : run.result = .ok report) :
    report.outcome.IsBalanced ∧
      report.outcome.succeeded = succeededBefore folded + (accepted run.rounds).length := by
  induction h with
  | @noneLeft left counter folded w =>
      cases hreport
      cases folded with
      | none => exact ⟨Outcome.isBalanced_empty, rfl⟩
      | some outcome => exact ⟨hbalanced outcome rfl, rfl⟩
  | unread => cases hreport
  | @exhausted counter folded texts w batch hne stores =>
      cases hreport
      cases folded with
      | none => exact ⟨Outcome.isBalanced_allFailed _, rfl⟩
      | some outcome => exact ⟨hbalanced outcome rfl, rfl⟩
  | @clean left counter folded texts w after pass hne hpass hclean =>
      cases hreport
      refine ⟨isBalanced_fold folded pass, ?_⟩
      rw [succeeded_fold]
      simp [accepted]
  | unarchived => cases hreport
  | @again left counter folded texts w after last pass next files later hne hpass hfailed
      harchive stores rest ih =>
      obtain ⟨hlater, hsucceeded⟩ := ih (by simpa using isBalanced_fold folded pass) hreport
      refine ⟨hlater, ?_⟩
      rw [hsucceeded, succeededBefore, Option.elim_some, succeeded_fold]
      simp only [accepted, List.flatMap_cons, List.length_append]
      omega

end Plan.Ran

end Retry

end SqlScript
