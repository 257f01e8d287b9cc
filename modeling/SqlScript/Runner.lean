import SqlScript.Connection.Resilient
import SqlScript.Prepared
import SqlScript.Summary

/-!
# Running scripts

A script is prepared and handed to a reconnecting connection in a first pass. If archiving is on,
what failed is archived and retried. Everything that the passes did is kept beside the result, also
when an archive error stops the run.
-/

namespace SqlScript

/-- The passes of a run, the first one included, and what came of them. -/
structure Run where
  rounds : List Retry.Round
  result : Except ScriptError Summary

namespace Config

def archiver (config : Config) : Archiver := ⟨config.archiveRoot, config.archiveMode⟩

/-- How failures of what has this label are retried. -/
def retryPlan (config : Config) (label : String) : Retry.Plan where
  archiver := config.archiver
  label := label
  maxAttempts := config.maxAttempts.toNat
  excluded := if config.reapplyFilterOnRetry then some config.excludedPrefixes else none

/-- The connection on which scripts are run. -/
def connection {σ : Type} (config : Config) (c : Connection σ) : Connection (Resilient σ) :=
  c.resilient config.reconnectAttempts.toNat

end Config

/-- The summary of a first pass over a prepared script. -/
def Summary.ofPass (source : String) (prepared : Prepared) (first : Pass) (reconnects : Nat) :
    Summary where
  source := source
  split := prepared.split
  filtered := prepared.filtered
  stripped := prepared.stripped
  outcome := first.outcome
  retryRounds := 0
  retryStatus := none
  archiveLocation := none
  reconnects := reconnects

/-- Archives the failures of a first pass and retries them. -/
def Config.retryFailures {σ : Type} (config : Config) (c : Connection (Resilient σ))
    (label : String) (first : Pass) (w : World (Resilient σ)) :
    Retry.Run × World (Resilient σ) :=
  match config.archiver.archive first.failed label w.now w.files with
  | (.error e, files) => (⟨[⟨first, none⟩], .error e⟩, { w with files })
  | (.ok batch, files) =>
      match (config.retryPlan label).retry c batch { w with files } with
      | (retried, w) => ({ retried with rounds := ⟨first, some batch⟩ :: retried.rounds }, w)

/--
Runs a script from end to end. Only an archive that cannot be written or read makes it fail, with
what the first pass did.
-/
def Script.run {σ : Type} (script : Script) (config : Config) (c : Connection σ)
    (w : World (Resilient σ)) : Run × World (Resilient σ) :=
  let prepared := script.prepare config
  let before := w.session.reconnects
  let summary (first : Pass) (w : World (Resilient σ)) :=
    Summary.ofPass script.label prepared first (w.session.reconnects - before)
  match (config.connection c).pass prepared.statements w with
  | (first, w) =>
      if first.outcome.isClean ∨ ¬ config.archiveFailures then
        (⟨[⟨first, none⟩], .ok (summary first w)⟩, w)
      else match config.retryFailures (config.connection c) script.label first w with
        | (retried, w) =>
            match retried.result with
            | .error e => (⟨retried.rounds, .error (.aborted first.outcome e)⟩, w)
            | .ok report => (⟨retried.rounds, .ok ((summary first w).absorb report)⟩, w)

/-- Runs retry rounds over an archived batch. -/
def Archive.Batch.run {σ : Type} (batch : Archive.Batch) (label : String) (config : Config)
    (c : Connection σ) (w : World (Resilient σ)) : Run × World (Resilient σ) :=
  let before := w.session.reconnects
  match (config.retryPlan label).retry (config.connection c) batch w with
  | (retried, w) =>
      match retried.result with
      | .error e => (⟨retried.rounds, .error e⟩, w)
      | .ok report =>
          (⟨retried.rounds, .ok {
              source := label
              split := batch.size
              filtered := 0
              stripped := 0
              outcome := report.outcome
              retryRounds := report.rounds
              retryStatus := some report.status
              archiveLocation := report.archive.map (·.directory)
              reconnects := w.session.reconnects - before }⟩, w)

end SqlScript
