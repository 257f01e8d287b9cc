import SqlScript.Proofs.Connection.Exchange
import SqlScript.Proofs.Retry.Calls
import SqlScript.Proofs.Runner.Passes

/-!
# The calls of a run

Seen from the connection, a run is its passes: it hands over the texts of their statements and
nothing else, and the texts that run are those of the statements that the passes count as accepted.
-/

namespace SqlScript

variable {σ : Type}

open Resilient

/-- The texts handed over in some rounds. -/
def Retry.handed (rounds : List Retry.Round) : List String :=
  rounds.flatMap fun round => round.pass.statements.map Statement.text

/-- The texts accepted in some rounds. -/
def Retry.ran (rounds : List Retry.Round) : List String :=
  (Retry.accepted rounds).map Statement.text

theorem Retry.handed_eq (rounds : List Round) :
    handed rounds = (answers rounds).map fun answer => answer.1.text := by
  rw [handed, answers, List.map_flatMap]
  refine List.flatMap_congr fun round _ => ?_
  rw [Pass.statements, List.map_map]
  rfl

theorem Retry.accepted_eq (rounds : List Round) :
    accepted rounds = ((answers rounds).filter fun answer => answer.2.isOk).map Prod.fst := by
  rw [accepted, answers, List.filter_flatMap, List.map_flatMap]
  rfl

theorem Retry.length_accepted (rounds : List Round) :
    (accepted rounds).length = (answers rounds).countP fun answer => answer.2.isOk := by
  rw [accepted_eq, List.length_map, List.countP_eq_length_filter]

/-- Archives are written between two passes, and a run does nothing else with a session. -/
theorem Script.Ran.tracks {script : Script} {config : Config} {c : Connection σ}
    {w last : World (Resilient σ)} {run : Run}
    {track : World (Resilient σ) → List (Statement × Except ScriptError Nat) →
      World (Resilient σ) → Prop} (h : script.Ran config c w run last)
    (htrack : (config.connection c).Tracks track) : track w (Retry.answers run.rounds) last := by
  cases h with
  | once hpass hends =>
      rw [Retry.answers, List.flatMap_singleton]
      exact htrack.of_pass hpass
  | unarchived hpass hfailed harchives harchive =>
      rw [Retry.answers, List.flatMap_singleton]
      exact htrack.files _ (htrack.of_pass hpass)
  | retried hpass hfailed harchives harchive hretried =>
      rw [Retry.answers, List.flatMap_cons]
      exact htrack.trans (htrack.files _ (htrack.of_pass hpass)) (hretried.tracks htrack)

/-- The calls of a run are the exchanges for the answers of its passes. -/
theorem Script.exists_exchanges (script : Script) (config : Config) (c : Connection σ)
    (w : World (Resilient (Recorded σ))) :
    ∃ calls, (script.run config c.recorded w).2.session.inner.calls =
        w.session.inner.calls ++ calls ∧
      Exchanges (max 1 config.reconnectAttempts.toNat)
        (Retry.answers (script.run config c.recorded w).1.rounds) calls := by
  obtain ⟨calls, htraces, hcalls⟩ :=
    (script.ran_run config c.recorded w).tracks (tracks_exchanges c _)
  exact ⟨calls, htraces.calls_eq, hcalls⟩

theorem Resilient.Exchanges.ran_answers {bound : Nat} {rounds : List Retry.Round}
    {calls : List Call} (h : Exchanges bound (Retry.answers rounds) calls) :
    Call.ran calls = Retry.ran rounds := by
  rw [h.ran_eq, Retry.ran, Retry.accepted_eq, List.map_map]
  rfl

theorem Script.made_run (script : Script) (config : Config) (c : Connection σ)
    (w : World (Resilient (Recorded σ))) :
    Recorded.Made w (script.run config c.recorded w).2
      (Retry.handed (script.run config c.recorded w).1.rounds)
      (Retry.ran (script.run config c.recorded w).1.rounds) := by
  obtain ⟨calls, hmade, hcalls⟩ := script.exists_exchanges config c w
  refine ⟨calls, hmade, fun text => ?_, hcalls.ran_answers⟩
  rw [Retry.handed_eq]
  exact hcalls.mem_texts_iff text

end SqlScript
