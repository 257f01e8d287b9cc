import SqlScript.Proofs.Archive.Trail
import SqlScript.Proofs.Connection.Files
import SqlScript.Proofs.Retry.Calls

/-!
# The batches of rounds

Rounds archive what each of them leaves, so that their batches are the trail of their failures, and
a report of failures that are left names the last of these batches.
-/

namespace SqlScript

open FileTree

variable {σ : Type}

namespace Retry

/-- The texts that a round left, and the batch in which they were archived. -/
def Round.entry? (round : Round) : Option (List String × Archive.Batch) :=
  round.batch.map fun batch => (round.pass.failed.map Statement.text, batch)

/-- What some rounds archived, in order. -/
def trail (rounds : List Round) : List (List String × Archive.Batch) := rounds.filterMap Round.entry?

theorem trail_cons_some (pass : Pass) (batch : Archive.Batch) (later : List Round) :
    trail (⟨pass, some batch⟩ :: later) = (pass.failed.map Statement.text, batch) :: trail later :=
  rfl

namespace Plan.Ran

variable {p : Plan} {c : Connection σ} {left : Nat} {counter : Counter} {folded : Option Outcome}
  {texts : List String} {w last : World σ} {run : Run} {report : Report}

/-- The rounds of a report archived exactly what they left. -/
theorem isSome_batch_iff (h : p.Ran c left counter folded texts w run last)
    (hreport : run.result = .ok report) :
    ∀ round ∈ run.rounds, round.batch.isSome ↔ round.pass.failed ≠ [] := by
  induction h with
  | noneLeft => exact fun round hmem => absurd hmem List.not_mem_nil
  | unread => cases hreport
  | exhausted => exact fun round hmem => absurd hmem List.not_mem_nil
  | clean hne hpass hclean => simp [hclean]
  | unarchived => cases hreport
  | again hne hpass hfailed harchive stores rest ih =>
      exact List.forall_mem_cons.2 ⟨by simpa using hfailed, ih hreport⟩

/-- Rounds whose calls leave the archive alone make a trail in it. -/
theorem exists_trailed {c : Connection σ} {attempts : Nat}
    {w last : World (Resilient (Recorded σ))}
    (h : p.Ran (c.recorded.resilient attempts) left counter folded texts w run last)
    (hspared : Recorded.Spared p.archiver.root w last) (htree : w.files.IsTree)
    (hreport : run.result = .ok report) :
    ∃ names, Archive.Trailed w.files p.archiver.root (trail run.rounds) last.files names := by
  have hgrows := (Recorded.Does.any c).tracks attempts
  induction h with
  | noneLeft => exact ⟨[], .nil (.refl _ _)⟩
  | unread => cases hreport
  | exhausted => exact ⟨[], .nil (.refl _ _)⟩
  | clean hne hpass hclean => exact ⟨[], .nil (hspared.of_pass hpass)⟩
  | unarchived => cases hreport
  | again hne hpass hfailed harchive stores rest ih =>
      obtain ⟨hfirst, hlater⟩ := hspared.split (hgrows.of_pass hpass)
        (rest.tracks hgrows)
      exact Archive.Trailed.exists_of_archive (Recorded.Spared.of_pass hfirst hpass) htree harchive
        fun htree' => ih hlater htree' hreport

end Plan.Ran

/-- A report of failures that are left is on the last batch, or on the first one if no round ran. -/
def Report.IsOn (report : Report) (first : Archive.Batch) (rounds : List Round) : Prop :=
  report.archive =
    if report.status = .exhausted then some ((trail rounds).getLast?.elim first Prod.snd) else none

theorem Report.IsOn.cons {report : Report} {next : Archive.Batch} {later : List Round}
    (h : report.IsOn next later) (pass : Pass) (first : Archive.Batch) :
    report.IsOn first (⟨pass, some next⟩ :: later) := by
  rw [IsOn, trail_cons_some, List.getLast?_cons, h]
  cases (trail later).getLast? <;> rfl

namespace Plan

variable {p : Plan} {batch : Archive.Batch} {counter : Counter} {folded : Option Outcome}
  {report : Report}

theorem isOn_of_exhausted {t : FileTree}
    (h : (p.exhausted t counter batch folded).result = .ok report) :
    report.IsOn batch (p.exhausted t counter batch folded).rounds := by
  cases folded with
  | some outcome =>
      cases h
      rfl
  | none =>
      cases hload : p.load t batch with
      | error e => simp [exhausted, hload] at h
      | ok statements =>
          simp only [exhausted, hload] at h ⊢
          cases h
          rfl

theorem isOn_of_rounds (p : Plan) (c : Connection σ) (left : Nat) (w : World σ)
    (h : (p.rounds c left counter batch folded w).1.result = .ok report) :
    report.IsOn batch (p.rounds c left counter batch folded w).1.rounds := by
  induction left generalizing counter batch folded w with
  | zero =>
      by_cases hempty : batch.isEmpty = true
      · rw [rounds, if_pos hempty] at h ⊢
        cases h
        rfl
      · rw [rounds, if_neg hempty] at h ⊢
        exact isOn_of_exhausted h
  | succ left ih =>
      by_cases hempty : batch.isEmpty = true
      · rw [rounds, if_pos hempty] at h ⊢
        cases h
        rfl
      rw [rounds, if_neg hempty] at h ⊢
      cases hload : p.load w.files batch with
      | error e => simp [hload] at h
      | ok statements =>
          rcases hround : p.round c statements w with ⟨pass, answer, after⟩
          simp only [hload, hround] at h ⊢
          cases answer with
          | error e => cases h
          | ok archived =>
              cases archived with
              | none =>
                  cases h
                  rfl
              | some next =>
                  exact (ih after h).cons pass batch

theorem isOn_of_retry {c : Connection σ} {w last : World σ} {retried : Run}
    (hretry : p.retry c batch w = (retried, last)) (h : retried.result = .ok report) :
    report.IsOn batch retried.rounds := by
  have hrun : retried = (p.retry c batch w).1 := by rw [hretry]
  subst hrun
  exact p.isOn_of_rounds c p.maxAttempts w h

end Plan

end Retry

end SqlScript
