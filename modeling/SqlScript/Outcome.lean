import SqlScript.Statement

/-!
# Outcomes

What became of a sequence of statements: how many were handed over, how many ran, and which failed,
in execution order.
-/

namespace SqlScript

structure Outcome where
  attempted : Nat
  succeeded : Nat
  failed : List Statement
deriving DecidableEq, Repr, Inhabited

namespace Outcome

def empty : Outcome := ⟨0, 0, []⟩

/-- Every statement failed. -/
def allFailed (statements : List Statement) : Outcome := ⟨statements.length, 0, statements⟩

def recordSuccess (o : Outcome) : Outcome :=
  { o with attempted := o.attempted + 1, succeeded := o.succeeded + 1 }

def recordFailure (o : Outcome) (statement : Statement) : Outcome :=
  { o with attempted := o.attempted + 1, failed := o.failed ++ [statement] }

def isClean (o : Outcome) : Bool := o.failed.isEmpty

/--
Folds a later pass over the failures of this outcome into one. What was attempted is counted
again, since the later pass may have divided the failures into more or fewer statements.
-/
def andThen (o next : Outcome) : Outcome :=
  { attempted := o.succeeded + next.attempted
    succeeded := o.succeeded + next.succeeded
    failed := next.failed }

/-- Every attempt is accounted for. -/
def IsBalanced (o : Outcome) : Prop := o.succeeded + o.failed.length = o.attempted

theorem isBalanced_empty : IsBalanced empty := rfl

theorem isBalanced_allFailed (statements : List Statement) : IsBalanced (allFailed statements) := by
  simp [IsBalanced, allFailed]

theorem isBalanced_recordSuccess {o : Outcome} (h : o.IsBalanced) : o.recordSuccess.IsBalanced := by
  simp only [IsBalanced, recordSuccess] at *
  omega

theorem isBalanced_recordFailure {o : Outcome} (h : o.IsBalanced) (statement : Statement) :
    (o.recordFailure statement).IsBalanced := by
  simp only [IsBalanced, recordFailure, List.length_append, List.length_singleton] at *
  omega

theorem isBalanced_andThen {next : Outcome} (o : Outcome) (h : next.IsBalanced) :
    (o.andThen next).IsBalanced := by
  simp only [IsBalanced, andThen] at *
  omega

end Outcome

end SqlScript
