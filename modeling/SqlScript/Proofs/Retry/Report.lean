import SqlScript.Connection.Scripted
import SqlScript.Proofs.Retry.Residue

/-!
# What a retry reports

Rounds end when no text is left of those they started from, or when no round is left and the texts
are in a batch. A round replaces the texts by those of its failures, so that a report on the later
rounds is one on all of them (`Report.Ends.cons`, `Report.Describes.cons`). The main theorem is
`Retry.Plan.retry_reports_rounds`.
-/

namespace SqlScript

variable {σ : Type}

namespace Retry

/-- The failures of the last one of some rounds. -/
def lastFailed (rounds : List Round) : Option (List Statement) :=
  rounds.getLast?.map fun round => round.pass.failed

theorem lastFailed_cons (round : Round) (later : List Round) :
    lastFailed (round :: later) = some ((lastFailed later).getD round.pass.failed) := by
  rw [lastFailed, lastFailed, List.getLast?_cons]
  cases later.getLast? <;> rfl

/-- The texts that some rounds leave of those that they started from. -/
def textsLeft (texts : List String) (rounds : List Round) : List String :=
  ((lastFailed rounds).map fun failed => failed.map Statement.text).getD texts

theorem textsLeft_cons (texts : List String) (round : Round) (later : List Round) :
    textsLeft texts (round :: later) =
      textsLeft (round.pass.failed.map Statement.text) later := by
  rw [textsLeft, lastFailed_cons, textsLeft]
  cases lastFailed later <;> rfl

theorem textsLeft_of_mem_getLast? (texts : List String) {rounds : List Round} {last : Round}
    (h : last ∈ rounds.getLast?) :
    textsLeft texts rounds = last.pass.failed.map Statement.text := by
  rw [textsLeft, lastFailed, Option.mem_def.1 h]
  rfl

namespace Report

/-- How rounds over some texts end, where so many of them are allowed. -/
inductive Ends (report : Report) (allowed : Nat) (texts : List String)
    (rounds : List Round) (files : FileTree) : Prop
  | resolved (status : report.status = .resolved) (archive : report.archive = none)
      (nil : textsLeft texts rounds = [])
  | exhausted {batch : Archive.Batch} (status : report.status = .exhausted)
      (archive : report.archive = some batch) (ne_nil : textsLeft texts rounds ≠ [])
      (stores : batch.Stores files (textsLeft texts rounds))
      (length_eq : rounds.length = allowed)

/--
What a report says of some rounds. It counts them, after those that were started before, and lists
the failures of the last one, or those that were folded before if there is none.
-/
structure Describes (report : Report) (started : Nat) (failed : List Statement)
    (rounds : List Round) : Prop where
  rounds_eq : report.rounds = started + rounds.length
  failed_eq : report.outcome.failed = (lastFailed rounds).getD failed

variable {report : Report} {allowed started : Nat} {failed : List Statement} {texts : List String}
  {round : Round} {rounds later : List Round} {files : FileTree}

theorem Ends.cons (h : report.Ends allowed (round.pass.failed.map Statement.text) later files) :
    report.Ends (allowed + 1) texts (round :: later) files := by
  have htexts := textsLeft_cons texts round later
  cases h with
  | resolved status archive nil => exact .resolved status archive (htexts.trans nil)
  | exhausted status archive ne_nil stores length_eq =>
      rw [← htexts] at ne_nil stores
      exact .exhausted status archive ne_nil stores (congrArg (· + 1) length_eq)

theorem Ends.resolved_iff_archive (h : report.Ends allowed texts rounds files) :
    report.status = .resolved ↔ report.archive = none := by
  cases h with
  | resolved status archive => simp [status, archive]
  | exhausted status archive => simp [status, archive]

theorem Ends.resolved_iff (h : report.Ends allowed texts rounds files) :
    report.status = .resolved ↔ textsLeft texts rounds = [] := by
  cases h with
  | resolved status archive nil => simp [status, nil]
  | exhausted status archive ne_nil => simp [status, ne_nil]

theorem Describes.cons (h : report.Describes (started + 1) round.pass.failed later) :
    report.Describes started failed (round :: later) := by
  constructor
  · rw [h.rounds_eq, List.length_cons]
    omega
  · rw [h.failed_eq, lastFailed_cons, Option.getD_some]

end Report

theorem Plan.statements_nil (p : Plan) : p.statements [] = [] := by
  unfold statements
  cases p.excluded <;> rfl

namespace Plan.Ran

variable {p : Plan} {c : Connection σ} {left : Nat} {counter : Counter} {folded : Option Outcome}
  {texts : List String} {w last : World σ} {run : Run} {report : Report}

theorem ends (h : p.Ran c left counter folded texts w run last)
    (hreport : run.result = .ok report) :
    report.Ends left texts run.rounds last.files := by
  induction h with
  | noneLeft =>
      cases hreport
      exact .resolved rfl rfl rfl
  | unread => cases hreport
  | exhausted hne stores =>
      cases hreport
      exact .exhausted rfl rfl hne stores rfl
  | clean hne hpass hclean =>
      cases hreport
      refine .resolved rfl rfl ?_
      rw [textsLeft_cons, hclean]
      rfl
  | unarchived => cases hreport
  | again hne hpass hfailed harchive stores rest ih => exact (ih hreport).cons

theorem describes (h : p.Ran c left counter folded texts w run last)
    (hreport : run.result = .ok report) :
    report.Describes counter.started (folded.getD (.allFailed (p.statements texts))).failed
      run.rounds := by
  induction h with
  | @noneLeft left counter folded w =>
      cases hreport
      refine ⟨rfl, ?_⟩
      cases folded with
      | none => exact (p.statements_nil).symm
      | some outcome => rfl
  | unread => cases hreport
  | exhausted =>
      cases hreport
      exact ⟨rfl, rfl⟩
  | clean =>
      cases hreport
      exact ⟨rfl, failed_fold _ _⟩
  | unarchived => cases hreport
  | again hne hpass hfailed harchive stores rest ih =>
      have hlater := ih hreport
      rw [Option.getD_some, failed_fold] at hlater
      exact hlater.cons

/-- A round is followed by another one only if it left failures. -/
theorem failed_ne_nil (h : p.Ran c left counter folded texts w run last) :
    ∀ round ∈ run.rounds.dropLast, round.pass.failed ≠ [] := by
  induction h with
  | noneLeft => simp [resolved]
  | unread => simp
  | exhausted => simp
  | clean => simp
  | unarchived => simp
  | @again left counter folded texts w after last pass next files later hne hpass hfailed
      harchive stores rest ih =>
      cases hlater : later.rounds with
      | nil => simp
      | cons second others =>
          rw [hlater] at ih
          rw [List.dropLast_cons_cons, List.forall_mem_cons]
          exact ⟨hfailed, ih⟩

theorem rounds_eq_nil_iff (h : p.Ran c left counter folded texts w run last)
    (hreport : run.result = .ok report) : run.rounds = [] ↔ texts = [] ∨ left = 0 := by
  cases h with
  | noneLeft => simp [resolved]
  | unread => cases hreport
  | exhausted => simp
  | clean hne => simp [hne]
  | unarchived => cases hreport
  | again hne => simp [hne]

/-- No text is left if there was none to start from, or if the last round left no failure. -/
theorem textsLeft_eq_nil_iff (h : p.Ran c left counter folded texts w run last)
    (hreport : run.result = .ok report) :
    textsLeft texts run.rounds = [] ↔
      texts = [] ∨ ∃ round ∈ run.rounds.getLast?, round.pass.failed = [] := by
  cases hlast : run.rounds.getLast? with
  | none =>
      rw [List.getLast?_eq_none_iff.1 hlast]
      simp [textsLeft, lastFailed]
  | some round =>
      rw [textsLeft_of_mem_getLast? texts hlast, List.map_eq_nil_iff]
      constructor
      · intro hfailed
        exact .inr ⟨round, rfl, hfailed⟩
      · rintro (rfl | ⟨_, hmem, hfailed⟩)
        · rw [(h.rounds_eq_nil_iff hreport).2 (.inl rfl)] at hlast
          cases hlast
        · cases hmem
          exact hfailed

end Plan.Ran

/-- If no round is allowed, the batch stays where it is. -/
theorem Plan.retry_of_maxAttempts_eq_zero {p : Plan} {c : Connection σ} {batch : Archive.Batch}
    {texts : List String} {w : World σ} (hzero : p.maxAttempts = 0)
    (reads : batch.read w.files = .ok texts) (hne : texts ≠ []) :
    p.retry c batch w =
      (⟨[], .ok ⟨.allFailed (p.statements texts), .ofLimit 0, .exhausted, some batch⟩⟩, w) := by
  have hempty : ¬ batch.isEmpty = true := by
    rwa [(Archive.Batch.stores_of_read reads).isEmpty_iff]
  rw [retry, hzero, rounds, if_neg hempty, exhausted]
  simp only [load_of_read reads]

/--
The report of a retry is about the passes that were made. It is resolved if the batch was empty or
the last round left no failure. Otherwise all rounds that are allowed were made, and the archive
stores the failures of the last one, or it is the batch itself if none was allowed.
-/
theorem Plan.retry_reports_rounds (p : Plan) (c : Connection σ) (batch : Archive.Batch)
    (w : World σ) {report : Report} (hreport : (p.retry c batch w).1.result = .ok report) :
    let rounds := (p.retry c batch w).1.rounds
    let after := (p.retry c batch w).2
    report.rounds ≤ p.maxAttempts ∧ rounds.length = report.rounds ∧
    (p.retry c.recorded batch (w.map .start)).2.session.calls = calls rounds ∧
    (∀ round ∈ rounds.dropLast, round.pass.failed ≠ []) ∧
    (report.status = .resolved ↔ report.archive = none) ∧
    (report.status = .resolved ↔
      batch.isEmpty = true ∨ ∃ last ∈ rounds.getLast?, last.pass.failed = []) ∧
    (report.status = .exhausted → ∃ left, report.archive = some left ∧
      (∀ last ∈ rounds.getLast?, report.rounds = p.maxAttempts ∧
        report.outcome.failed = last.pass.failed ∧ report.outcome.failed ≠ [] ∧
        left.Stores after.files (report.outcome.failed.map Statement.text)) ∧
      (rounds = [] → p.maxAttempts = 0 ∧ left = batch ∧ after = w)) := by
  intro rounds after
  obtain ⟨texts, hread⟩ := exists_texts_of_retry hreport
  have hstores := Archive.Batch.stores_of_read hread
  have hran := p.ran_retry c hstores
  have hlength : report.rounds = rounds.length := by
    have hcount := (hran.describes hreport).rounds_eq
    rwa [Counter.ofLimit, Nat.zero_add] at hcount
  have hfailed : report.outcome.failed = (lastFailed rounds).getD _ :=
    (hran.describes hreport).failed_eq
  have hends : report.Ends p.maxAttempts texts rounds after.files := hran.ends hreport
  have hle : rounds.length ≤ p.maxAttempts := hran.length_rounds_le
  refine ⟨hlength ▸ hle, hlength.symm, p.calls_retry c batch w, hran.failed_ne_nil,
    hends.resolved_iff_archive, ?_, ?_⟩
  · rw [hends.resolved_iff, hstores.isEmpty_iff]
    exact hran.textsLeft_eq_nil_iff hreport
  · intro hstatus
    cases hends with
    | resolved status => cases hstatus.symm.trans status
    | @exhausted left status archive ne_nil stores length_eq =>
        refine ⟨left, archive, ?_, ?_⟩
        · intro last hlast
          have hlastFailed : report.outcome.failed = last.pass.failed := by
            rw [hfailed, lastFailed, Option.mem_def.1 hlast]
            rfl
          rw [textsLeft_of_mem_getLast? texts hlast, ← hlastFailed] at ne_nil stores
          refine ⟨hlength.trans length_eq, hlastFailed, ?_, stores⟩
          intro hnil
          exact ne_nil (congrArg (List.map Statement.text) hnil)
        · intro hnone
          -- None was made, so none was allowed: nothing was done with the batch.
          rw [hnone] at ne_nil length_eq
          have hzero : p.maxAttempts = 0 := length_eq.symm
          have hretry := Plan.retry_of_maxAttempts_eq_zero (c := c) hzero hread ne_nil
          have hafter : after = w := congrArg Prod.snd hretry
          rw [hretry] at hreport
          cases hreport
          exact ⟨hzero, Option.some.inj archive.symm, hafter⟩

/-- A statement that is always rejected is left after both rounds, and is in the archive. -/
theorem Plan.retry_reports_rounds_of_rejected :
    let p : Plan := ⟨⟨⟨"fails"⟩, .parallel⟩, "x", 2, none⟩
    let seeds : FileTree := { FileTree.empty with
      nodes := [(["work"], .directory), (["work", "0.sql"], .file "INSERT;CREATE;BAD".toUTF8)] }
    let session := { Scripted.fresh with
      requires := [("INSERT", "CREATE")]
      failing := ["BAD"] }
    let ran := p.retry Scripted.connection ⟨⟨"."⟩, [⟨0, ⟨"0.sql"⟩⟩]⟩ ⟨session, seeds, .ofSeconds 0⟩
    ∃ report left, ran.1.result = .ok report ∧ report.status = .exhausted ∧ report.rounds = 2 ∧
      report.archive = some left ∧ left.read ran.2.files = .ok ["BAD"] := by
  intro p seeds session
  have hlaw := @Plan.retry_reports_rounds _ p Scripted.connection ⟨⟨"."⟩, [⟨0, ⟨"0.sql"⟩⟩]⟩
    ⟨session, seeds, .ofSeconds 0⟩
  have hrun :
      let ran := p.retry Scripted.connection ⟨⟨"."⟩, [⟨0, ⟨"0.sql"⟩⟩]⟩
        ⟨session, seeds, .ofSeconds 0⟩
      ran.1.result.toOption.map (fun report => (report.status, report.outcome.failed)) =
        some (.exhausted, [⟨1, "BAD"⟩]) ∧ ran.1.rounds.length = 2 ∧
        (ran.1.result.toOption.bind Report.archive).all
          (fun left => decide (left.IsReadable ran.2.files)) = true := by decide +kernel
  generalize p.retry Scripted.connection ⟨⟨"."⟩, [⟨0, ⟨"0.sql"⟩⟩]⟩
    ⟨session, seeds, .ofSeconds 0⟩ = ran at hlaw hrun ⊢
  obtain ⟨hresult, hlength, hreadable⟩ := hrun
  cases hreport : ran.1.result with
  | error e =>
      rw [hreport] at hresult
      cases hresult
  | ok report =>
      obtain ⟨-, hrounds, -, -, -, -, hleft⟩ := hlaw hreport
      rw [hreport] at hresult hreadable
      obtain ⟨hstatus, hfailed⟩ := Prod.mk.inj (Option.some.inj hresult)
      obtain ⟨left, harchive, hlast, -⟩ := hleft hstatus
      have hleft : left.IsReadable ran.2.files := by
        rw [Except.toOption, Option.bind_some, harchive] at hreadable
        exact of_decide_eq_true hreadable
      have hne : ran.1.rounds ≠ [] := by
        intro hnil
        rw [hnil] at hlength
        cases hlength
      obtain ⟨-, -, -, hstores⟩ := hlast _ (List.getLast?_eq_some_getLast hne)
      rw [hfailed] at hstores
      exact ⟨report, left, hreport, hstatus, hrounds.symm.trans hlength, harchive,
        hstores.read hleft⟩

end Retry

end SqlScript
