import SqlScript.Connection

/-!
# Recorded calls

A connection that answers as another one does and writes down each call with its answer, and what
became of the files in it. What is said about the calls that some work makes is said about its run
on a recorded connection.
-/

namespace SqlScript

/-- A call of a connection with the answer to it. -/
inductive Call where
  | execute (sql : String) (answer : Except ScriptError Nat)
  | fetch (sql : String) (answer : Except ScriptError (List Row))
  | disconnect (answer : Except ScriptError Unit)
  | reconnect (answer : Except ScriptError Unit)

namespace Call

/-- Whether a new session was opened. -/
def opens : Call → Bool
  | reconnect (.ok ()) => true
  | _ => false

/-- Whether a statement ran. -/
def runs : Call → Bool
  | execute _ (.ok _) | fetch _ (.ok _) => true
  | _ => false

end Call

/-- A session and the calls made on it, in order. -/
structure Recorded (σ : Type) where
  inner : σ
  calls : List Call
  /-- The files before and after each call. -/
  spans : List (FileTree × FileTree)

namespace Recorded

variable {σ α : Type}

/-- A session on which no call was written down. -/
def start (inner : σ) : Recorded σ := ⟨inner, [], []⟩

/-- An operation whose call is written down. -/
def note (call : Except ScriptError α → Call) (op : Operation σ α) :
    Operation (Recorded σ) α := fun w =>
  match op (w.withSession w.session.inner) with
  | (answer, after) =>
      (answer, after.withSession ⟨after.session, w.session.calls ++ [call answer],
        w.session.spans ++ [(w.files, after.files)]⟩)

end Recorded

def Connection.recorded {σ : Type} (c : Connection σ) : Connection (Recorded σ) where
  execute sql := Recorded.note (.execute sql) (c.execute sql)
  fetch sql := Recorded.note (.fetch sql) (c.fetch sql)
  disconnect := Recorded.note .disconnect c.disconnect
  reconnect := Recorded.note .reconnect c.reconnect

end SqlScript
