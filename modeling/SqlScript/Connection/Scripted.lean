import SqlScript.Connection
import SqlScript.Text.Removal

/-!
# Scripted sessions

A session whose behaviour is set up beforehand: which statements it rejects, which need another one
first, when it drops and what it answers. It counts what happens to it.
-/

namespace SqlScript

structure Scripted where
  connected : Bool
  /-- Calls that still drop the session. -/
  faults : Nat
  /-- Reconnects that are still refused by a connection fault. -/
  refused : Nat
  /-- Reconnects that still fail in another way. -/
  reconnectErrors : Nat
  disconnectErrors : Nat
  /-- Statements that are always rejected. -/
  failing : List String
  /-- Statements with one of these in them are rejected. -/
  failingParts : List String
  /-- How often a statement is still rejected. -/
  failTimes : List (String × Nat)
  /-- How often a statement still drops the session. -/
  faultOn : List (String × Nat)
  /-- What has to be executed before a statement. -/
  requires : List (String × String)
  /-- The error of a dropped session, if not the usual one. -/
  faultError : Option ScriptError
  /-- The error of a rejected statement, if not the usual one. -/
  failError : Option ScriptError
  /-- The rows that a statement changes, if not one. -/
  affected : List (String × Nat)
  /-- The rows that a query gives, if not the usual one. -/
  rows : List (String × List Row)
  /-- Changes to files, each at the call of that number. -/
  effects : List (Nat × List FileTree.Change)
  calls : Nat
  disconnects : Nat
  reconnects : Nat
  executed : List String

namespace Scripted

def fresh : Scripted where
  connected := true
  faults := 0
  refused := 0
  reconnectErrors := 0
  disconnectErrors := 0
  failing := []
  failingParts := []
  failTimes := []
  faultOn := []
  requires := []
  faultError := none
  failError := none
  affected := []
  rows := []
  effects := []
  calls := 0
  disconnects := 0
  reconnects := 0
  executed := []

instance : Inhabited Scripted := ⟨fresh⟩

def timesLeft (counts : List (String × Nat)) (sql : String) : Nat := (counts.lookup sql).getD 0

/-- Takes one from what is still to happen to a statement. -/
def takeOne (counts : List (String × Nat)) (sql : String) : List (String × Nat) :=
  counts.map fun (text, n) => if text = sql then (text, n - 1) else (text, n)

def faultOf (s : Scripted) : ScriptError :=
  s.faultError.getD (.connectionLost "server has gone away")

def rejectionOf (s : Scripted) (sql : String) : ScriptError :=
  s.failError.getD (.statement ("syntax error near '" ++ sql ++ "'"))

/-- Whether a statement is rejected however often it is tried. -/
def alwaysRejects (s : Scripted) (sql : String) : Bool :=
  s.failing.contains sql || s.failingParts.any fun part => Text.occursIn part.toList sql.toList

def missing? (s : Scripted) (sql : String) : Option String :=
  (s.requires.lookup sql).filter fun needed => ! s.executed.contains needed

def attempt (s : Scripted) (sql : String) : Except ScriptError Unit × Scripted :=
  if ! s.connected then (.error .notConnected, s)
  else if 0 < s.faults then
    (.error s.faultOf, { s with faults := s.faults - 1, connected := false })
  else if 0 < timesLeft s.faultOn sql then
    (.error s.faultOf, { s with faultOn := takeOne s.faultOn sql, connected := false })
  else if s.alwaysRejects sql then (.error (s.rejectionOf sql), s)
  else if 0 < timesLeft s.failTimes sql then
    (.error (s.rejectionOf sql), { s with failTimes := takeOne s.failTimes sql })
  else match s.missing? sql with
    | some needed => (.error (.statement ("'" ++ sql ++ "' needs '" ++ needed ++ "' first")), s)
    | none => (.ok (), { s with executed := s.executed ++ [sql] })

def effectsAt (s : Scripted) (call : Nat) : List FileTree.Change :=
  (s.effects.filter fun effect => effect.1 = call).flatMap fun effect => effect.2

/-- A call: it is counted, files change, and the statement is tried. -/
def call (sql : String) (answer : Scripted → α) : Operation Scripted α := fun w =>
  let counted := { w.session with calls := w.session.calls + 1 }
  let files := w.files.changes (counted.effectsAt counted.calls)
  match counted.attempt sql with
  | (.error e, s) => (.error e, ⟨s, files, w.now⟩)
  | (.ok (), s) => (.ok (answer s), ⟨s, files, w.now⟩)

def disconnect : Operation Scripted Unit := fun w =>
  let s := { w.session with disconnects := w.session.disconnects + 1, connected := false }
  if 0 < s.disconnectErrors then
    (.error (.connectionLost "disconnect failed"),
      { w with session := { s with disconnectErrors := s.disconnectErrors - 1 } })
  else (.ok (), { w with session := s })

def reconnect : Operation Scripted Unit := fun w =>
  let s := w.session
  if 0 < s.refused then
    (.error (.connectionLost "connection refused"),
      { w with session := { s with refused := s.refused - 1 } })
  else if 0 < s.reconnectErrors then
    (.error (.statement "authentication failed"),
      { w with session := { s with reconnectErrors := s.reconnectErrors - 1 } })
  else (.ok (), { w with session := { s with reconnects := s.reconnects + 1, connected := true } })

/-- The rows that a query gives: the usual ones hold how many statements were executed. -/
def rowsOf (s : Scripted) (sql : String) : List Row :=
  (s.rows.lookup sql).getD [[.integer s.executed.length]]

def connection : Connection Scripted where
  execute sql := call sql fun s => (s.affected.lookup sql).getD 1
  fetch sql := call sql fun s => s.rowsOf sql
  disconnect := disconnect
  reconnect := reconnect

end Scripted

end SqlScript
