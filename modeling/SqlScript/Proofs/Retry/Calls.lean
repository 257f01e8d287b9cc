import SqlScript.Proofs.Connection.Agreement
import SqlScript.Proofs.Connection.Calls
import SqlScript.Proofs.Retry.Rounds

/-!
# The calls of rounds

Between their passes rounds write and read archives, which makes no call. So the calls that rounds
make are those of their passes: `Plan.calls_retry`.
-/

namespace SqlScript

variable {σ : Type}

namespace Retry

/-- What was answered in some rounds, in order. -/
def answers (rounds : List Round) : List (Statement × Except ScriptError Nat) :=
  rounds.flatMap fun round => round.pass.answers

/-- The calls that some rounds made, in order. -/
def calls (rounds : List Round) : List Call := (answers rounds).map Call.ofAnswer

theorem Plan.Ran.tracks {p : Plan} {c : Connection σ} {left : Nat} {counter : Counter}
    {folded : Option Outcome} {texts : List String} {w last : World σ} {run : Run}
    {track : World σ → List (Statement × Except ScriptError Nat) → World σ → Prop}
    (h : p.Ran c left counter folded texts w run last) (htrack : c.Tracks track) :
    track w (answers run.rounds) last := by
  induction h with
  | noneLeft => exact htrack.refl _
  | unread => exact htrack.refl _
  | exhausted => exact htrack.refl _
  | clean hne hpass hclean =>
      rw [answers, List.flatMap_singleton]
      exact htrack.of_pass hpass
  | unarchived hne hpass hfailed harchive =>
      rw [answers, List.flatMap_singleton]
      exact htrack.files _ (htrack.of_pass hpass)
  | again hne hpass hfailed harchive stores rest ih =>
      rw [answers, List.flatMap_cons]
      exact htrack.trans (htrack.files _ (htrack.of_pass hpass)) ih

/-- The calls of a retry are those of its rounds. -/
theorem Plan.calls_retry (p : Plan) (c : Connection σ) (batch : Archive.Batch) (w : World σ) :
    (p.retry c.recorded batch (w.map .start)).2.session.calls =
      calls (p.retry c batch w).1.rounds := by
  have hrun := congrArg Prod.fst (p.agrees_retry c.agrees_recorded batch (w.map .start))
  change (p.retry c batch w).1 = (p.retry c.recorded batch (w.map .start)).1 at hrun
  rw [hrun]
  cases hread : batch.read w.files with
  | error e =>
      have hnone := p.retry_of_read_error c.recorded (w := w.map .start) hread
      rw [hnone]
      rfl
  | ok texts =>
      have hstores := Archive.Batch.stores_of_read hread
      exact (p.ran_retry c.recorded (w := w.map .start) hstores).tracks c.tracks_recorded

end Retry

end SqlScript
