import SqlScript.FileTree
import SqlScript.Timestamp

/-!
# Connections

What the execution of a script needs from a database session: it runs one statement at a time, and
it can be closed and opened again. Every operation may change the whole world around it, since
files and time go on while a statement runs.
-/

namespace SqlScript

inductive SqlValue where
  | null
  | integer (value : Int)
  /-- A floating point number, by a literal that denotes it. -/
  | real (literal : String)
  | nan
  | text (value : String)
  | blob (bytes : List UInt8)
deriving DecidableEq, Repr

abbrev Row := List SqlValue

/-- A session together with the files and the time of day. -/
structure World (σ : Type) where
  session : σ
  files : FileTree
  now : Timestamp

def World.withSession {σ τ : Type} (w : World σ) (session : τ) : World τ :=
  ⟨session, w.files, w.now⟩

/-- An operation that answers with a value or an error, and leaves a world behind. -/
abbrev Operation (σ α : Type) := World σ → Except ScriptError α × World σ

/-- The operations on a session. Statement text is passed on as it is. -/
structure Connection (σ : Type) where
  /-- Runs a statement: the number of rows it changed. -/
  execute : String → Operation σ Nat
  /-- Runs a query: its rows. -/
  fetch : String → Operation σ (List Row)
  disconnect : Operation σ Unit
  /-- Opens a new session in place of the last one. -/
  reconnect : Operation σ Unit

end SqlScript
