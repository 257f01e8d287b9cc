import SqlScript.Connection

/-!
# Reconnecting

A connection around another one that opens a new session when the old one died and makes the
failed call again, up to a bound. Only connection faults are worth that: a rejected statement would
be rejected again.
-/

namespace SqlScript

/-- The session of a reconnecting connection: that of the inner one and the reconnects so far. -/
structure Resilient (σ : Type) where
  inner : σ
  reconnects : Nat
deriving Repr

namespace Resilient

variable {σ α : Type}

def defaultAttempts : Nat := 5

/-- A wrapped session that has not been reconnected yet. -/
def wrap (inner : σ) : Resilient σ := ⟨inner, 0⟩

def onInner (op : Operation σ α) : Operation (Resilient σ) α := fun w =>
  match op (w.withSession w.session.inner) with
  | (answer, after) => (answer, after.withSession ⟨after.session, w.session.reconnects⟩)

def count (w : World (Resilient σ)) : World (Resilient σ) :=
  { w with session := { w.session with reconnects := w.session.reconnects + 1 } }

/-- Opens a new inner session and counts it if that went well. -/
def reconnect (c : Connection σ) : Operation (Resilient σ) Unit := fun w =>
  match onInner c.reconnect w with
  | (.ok (), after) => (.ok (), count after)
  | (.error e, after) => (.error e, after)

/--
Closes the session and opens a new one. That closing failed means no more than that the session was
gone. A connection fault in opening is left to the next attempt, which finds no session.
-/
def cycle (c : Connection σ) : Operation (Resilient σ) Unit := fun w =>
  match reconnect c (onInner c.disconnect w).2 with
  | (.ok (), after) => (.ok (), after)
  | (.error e, after) => (if e.isConnectionFault then .ok () else .error e, after)

/-- Makes a call, and again after each connection fault, at most `retries` times again. -/
def attempt (c : Connection σ) (op : Operation σ α) : Nat → Operation (Resilient σ) α
  | 0 => onInner op
  | retries + 1 => fun w =>
      match onInner op w with
      | (.ok value, after) => (.ok value, after)
      | (.error e, after) =>
          if e.isConnectionFault then
            match cycle c after with
            | (.error e, after) => (.error e, after)
            | (.ok (), after) => attempt c op retries after
          else (.error e, after)

end Resilient

/-- The reconnecting connection with this bound on attempts; at least one attempt is made. -/
def Connection.resilient {σ : Type} (c : Connection σ) (maxAttempts : Nat) :
    Connection (Resilient σ) where
  execute sql := Resilient.attempt c (c.execute sql) (maxAttempts - 1)
  fetch sql := Resilient.attempt c (c.fetch sql) (maxAttempts - 1)
  disconnect := Resilient.onInner c.disconnect
  reconnect := Resilient.reconnect c

end SqlScript
