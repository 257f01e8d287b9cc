import SqlScript.Connection

/-!
# Passes

A pass hands statements to a connection one after another, whatever becomes of each. Any error of
the connection marks its statement as failed, a fault that outlived the connection's own attempts
included.
-/

namespace SqlScript

/-- The statements of a pass with what the connection answered, in order. -/
structure Pass where
  answers : List (Statement × Except ScriptError Nat)

namespace Pass

/-- The statements handed over. -/
def statements (p : Pass) : List Statement := p.answers.map (·.1)

/-- The statements that the connection ran. -/
def accepted (p : Pass) : List Statement :=
  (p.answers.filter fun answer => answer.2.isOk).map (·.1)

/-- The statements that failed. -/
def failed (p : Pass) : List Statement :=
  (p.answers.filter fun answer => ! answer.2.isOk).map (·.1)

def outcome (p : Pass) : Outcome where
  attempted := p.answers.length
  succeeded := p.accepted.length
  failed := p.failed

end Pass

/-- Hands statements over. `done` holds the answers so far, the latest first. -/
def Connection.passFrom {σ : Type} (c : Connection σ)
    (done : List (Statement × Except ScriptError Nat)) (w : World σ) :
    List Statement → Pass × World σ
  | [] => (⟨done.reverse⟩, w)
  | statement :: rest =>
      match c.execute statement.text w with
      | (answer, after) => c.passFrom ((statement, answer) :: done) after rest

/-- One pass over the statements. -/
def Connection.pass {σ : Type} (c : Connection σ) (statements : List Statement) (w : World σ) :
    Pass × World σ :=
  c.passFrom [] w statements

theorem Connection.passFrom_eq {σ : Type} (c : Connection σ) (statements : List Statement)
    (done : List (Statement × Except ScriptError Nat)) (w : World σ) :
    c.passFrom done w statements =
      (⟨done.reverse ++ (c.pass statements w).1.answers⟩, (c.pass statements w).2) := by
  induction statements generalizing done w with
  | nil => simp [pass, passFrom]
  | cons statement rest ih =>
    simp only [pass, passFrom]
    rw [ih, ih [(statement, _)]]
    simp

@[simp] theorem Connection.pass_nil {σ : Type} (c : Connection σ) (w : World σ) :
    c.pass [] w = (⟨[]⟩, w) := rfl

theorem Connection.pass_cons {σ : Type} (c : Connection σ) (statement : Statement)
    (rest : List Statement) (w : World σ) :
    c.pass (statement :: rest) w =
      (⟨(statement, (c.execute statement.text w).1) ::
          (c.pass rest (c.execute statement.text w).2).1.answers⟩,
        (c.pass rest (c.execute statement.text w).2).2) := by
  simp only [pass, passFrom]
  rw [passFrom_eq]
  rfl

theorem Connection.statements_pass {σ : Type} (c : Connection σ) (statements : List Statement)
    (w : World σ) : (c.pass statements w).1.statements = statements := by
  induction statements generalizing w with
  | nil => rfl
  | cons statement rest ih =>
    rw [pass_cons]
    simpa [Pass.statements] using ih (c.execute statement.text w).2

/-! ## Statement by statement -/

/-- What an outcome becomes with the answer to one more statement. -/
def Outcome.record (o : Outcome) (answer : Statement × Except ScriptError Nat) : Outcome :=
  match answer.2 with
  | .ok _ => o.recordSuccess
  | .error _ => o.recordFailure answer.1

theorem Outcome.isBalanced_record {o : Outcome} (h : o.IsBalanced)
    (answer : Statement × Except ScriptError Nat) : (o.record answer).IsBalanced := by
  unfold record
  split
  · exact isBalanced_recordSuccess h
  · exact isBalanced_recordFailure h answer.1

theorem Pass.outcome_concat (answers : List (Statement × Except ScriptError Nat))
    (answer : Statement × Except ScriptError Nat) :
    (⟨answers ++ [answer]⟩ : Pass).outcome = (⟨answers⟩ : Pass).outcome.record answer := by
  obtain ⟨statement, _ | rows⟩ := answer
  · simp [outcome, accepted, failed, Outcome.record, Outcome.recordFailure, Except.isOk,
      Except.toBool]
  · simp [outcome, accepted, failed, Outcome.record, Outcome.recordSuccess, Except.isOk,
      Except.toBool]

/-- The outcome of a pass is put together from one answer after another. -/
theorem Pass.outcome_eq_foldl (p : Pass) : p.outcome = p.answers.foldl Outcome.record .empty := by
  have hfold : ∀ done todo : List (Statement × Except ScriptError Nat),
      todo.foldl Outcome.record (⟨done⟩ : Pass).outcome = (⟨done ++ todo⟩ : Pass).outcome := by
    intro done todo
    induction todo generalizing done with
    | nil => rw [List.append_nil, List.foldl_nil]
    | cons answer rest ih => rw [List.foldl_cons, ← outcome_concat, ih, List.append_assoc]; rfl
  exact (hfold [] p.answers).symm

theorem Pass.isBalanced_outcome (p : Pass) : p.outcome.IsBalanced := by
  rw [outcome_eq_foldl]
  exact List.foldlRecOn p.answers Outcome.record Outcome.isBalanced_empty
    fun _ h answer _ => Outcome.isBalanced_record h answer

end SqlScript
