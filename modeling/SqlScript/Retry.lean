import SqlScript.Archive
import SqlScript.Exclusion
import SqlScript.Pass
import SqlScript.Scan

/-!
# Retrying archived failures

A round reads a batch back in numeric order, scans every file again and hands the statements over.
What fails is archived as a new batch, which the next round reads. Rounds end when one leaves no
failure or their bound is reached; that failures are left then is a result and no error.
-/

namespace SqlScript

namespace Retry

structure Counter where
  started : Nat
  limit : Nat
deriving DecidableEq, Repr

namespace Counter

def ofLimit (limit : Nat) : Counter := ⟨0, limit⟩

def isExhausted (c : Counter) : Bool := decide (c.limit ≤ c.started)

def next (c : Counter) : Counter := { c with started := c.started + 1 }

def begin? (c : Counter) : Option Counter := if c.isExhausted then none else some c.next

end Counter

inductive Status where
  /-- No failure is left. -/
  | resolved
  /-- The bound was reached with failures left. -/
  | exhausted
deriving DecidableEq, Repr

def Status.word : Status → String
  | resolved => "resolved"
  | exhausted => "exhausted"

structure Report where
  /-- The outcome folded over all rounds. -/
  outcome : Outcome
  counter : Counter
  status : Status
  /-- The batch of the failures that are left. -/
  archive : Option Archive.Batch
deriving DecidableEq, Repr

def Report.rounds (r : Report) : Nat := r.counter.started

/-- A pass over the connection and the batch in which its failures were archived. -/
structure Round where
  pass : Pass
  batch : Option Archive.Batch

/-- The rounds that ran, and what came of them: a report, or the error that stopped them. -/
structure Run where
  rounds : List Round
  result : Except ScriptError Report

structure Plan where
  archiver : Archiver
  /-- Names the batches of the failures that are left. -/
  label : String
  maxAttempts : Nat
  /-- Statements that start with one of these are dropped before each round. -/
  excluded : Option (List String)
deriving DecidableEq, Repr

def defaultAttempts : Nat := 5

/-- The statements of archived texts: each is scanned, then all are numbered. -/
def statementsOf (texts : List String) : List Statement :=
  Statement.renumber (texts.flatMap split)

namespace Plan

/-- The statements of a batch that the plan lets through. -/
def statements (p : Plan) (texts : List String) : List Statement :=
  match p.excluded with
  | some leads => keepAllowed leads (statementsOf texts)
  | none => statementsOf texts

def load (p : Plan) (t : FileTree) (batch : Archive.Batch) : Except ScriptError (List Statement) :=
  match batch.read t with
  | .error e => .error e
  | .ok texts => .ok (p.statements texts)

def fold (folded : Option Outcome) (outcome : Outcome) : Outcome :=
  match folded with
  | some before => before.andThen outcome
  | none => outcome

def resolved (counter : Counter) (outcome : Outcome) : Run :=
  ⟨[], .ok ⟨outcome, counter, .resolved, none⟩⟩

/-- The bound is reached. If no round ran, everything in the batch counts as failed. -/
def exhausted (p : Plan) (t : FileTree) (counter : Counter) (batch : Archive.Batch)
    (folded : Option Outcome) : Run :=
  match folded with
  | some outcome => ⟨[], .ok ⟨outcome, counter, .exhausted, some batch⟩⟩
  | none =>
      match p.load t batch with
      | .error e => ⟨[], .error e⟩
      | .ok statements => ⟨[], .ok ⟨.allFailed statements, counter, .exhausted, some batch⟩⟩

/-- One round over statements: a pass, and the archive of its failures if there are any. -/
def round {σ : Type} (p : Plan) (c : Connection σ) (statements : List Statement) (w : World σ) :
    Pass × Except ScriptError (Option Archive.Batch) × World σ :=
  match c.pass statements w with
  | (pass, w) =>
      if pass.outcome.isClean then (pass, .ok none, w)
      else match p.archiver.archive pass.failed p.label w.now w.files with
        | (.error e, files) => (pass, .error e, { w with files })
        | (.ok batch, files) => (pass, .ok (some batch), { w with files })

/--
The rounds from a batch on, with `left` of them still allowed. An empty batch needs no round.
-/
def rounds {σ : Type} (p : Plan) (c : Connection σ) :
    Nat → Counter → Archive.Batch → Option Outcome → World σ → Run × World σ
  | 0, counter, batch, folded, w =>
      if batch.isEmpty then (resolved counter (folded.getD .empty), w)
      else (p.exhausted w.files counter batch folded, w)
  | left + 1, counter, batch, folded, w =>
      if batch.isEmpty then (resolved counter (folded.getD .empty), w)
      else
        match p.load w.files batch with
        | .error e => (⟨[], .error e⟩, w)
        | .ok statements =>
            match p.round c statements w with
            | (pass, .error e, w) => (⟨[⟨pass, none⟩], .error e⟩, w)
            | (pass, .ok none, w) =>
                let ended := resolved counter.next (fold folded pass.outcome)
                ({ ended with rounds := [⟨pass, none⟩] }, w)
            | (pass, .ok (some next), w) =>
                match p.rounds c left counter.next next (some (fold folded pass.outcome)) w with
                | (later, w) => ({ later with rounds := ⟨pass, some next⟩ :: later.rounds }, w)

/--
As the counter sees it: a round begins if the counter allows one more, and the rest goes on from the
counter that it leaves.
-/
theorem rounds_eq_begin {σ : Type} (p : Plan) (c : Connection σ) {left : Nat} {counter : Counter}
    (hleft : counter.limit = counter.started + left) (batch : Archive.Batch)
    (folded : Option Outcome) (w : World σ) :
    p.rounds c left counter batch folded w =
      if batch.isEmpty then (resolved counter (folded.getD .empty), w)
      else
        match counter.begin? with
        | none => (p.exhausted w.files counter batch folded, w)
        | some begun =>
            match p.load w.files batch with
            | .error e => (⟨[], .error e⟩, w)
            | .ok statements =>
                match p.round c statements w with
                | (pass, .error e, w) => (⟨[⟨pass, none⟩], .error e⟩, w)
                | (pass, .ok none, w) =>
                    let ended := resolved begun (fold folded pass.outcome)
                    ({ ended with rounds := [⟨pass, none⟩] }, w)
                | (pass, .ok (some next), w) =>
                    match p.rounds c (left - 1) begun next (some (fold folded pass.outcome)) w with
                    | (later, w) =>
                        ({ later with rounds := ⟨pass, some next⟩ :: later.rounds }, w) := by
  cases left with
  | zero =>
      have hnone : counter.begin? = none :=
        if_pos (decide_eq_true (Nat.le_of_eq (hleft.trans (Nat.add_zero _))))
      rw [hnone, rounds]
  | succ left =>
      have hbegins : ¬ counter.isExhausted = true := by
        simp only [Counter.isExhausted, decide_eq_true_eq]
        omega
      have hsome : counter.begin? = some counter.next := if_neg hbegins
      rw [hsome, rounds, Nat.add_sub_cancel]

/--
Retries a batch. Only reading or writing an archive stops it with an error; what the connection
answers ends up in the report.
-/
def retry {σ : Type} (p : Plan) (c : Connection σ) (batch : Archive.Batch) (w : World σ) :
    Run × World σ :=
  p.rounds c p.maxAttempts (.ofLimit p.maxAttempts) batch none w

end Plan

end Retry

end SqlScript
