import SqlScript.Archive
import SqlScript.Exclusion

/-!
# Configuration

How scripts are divided, filtered, run, archived and retried, and which of these settings cannot
work.
-/

namespace SqlScript

inductive SplitMode where
  /-- By a lexical scan that respects strings and comments. -/
  | scan
  /-- At every occurrence of a character. -/
  | delimiter (character : Char)
deriving DecidableEq, Repr, Inhabited

structure Config where
  /-- Statements that start with one of these are not run. -/
  excludedPrefixes : List String
  /-- The most retry rounds over archived failures. -/
  maxAttempts : UInt32
  /-- The most attempts for one call of a connection. -/
  reconnectAttempts : UInt32
  archiveRoot : Path
  /-- Whether failures are archived and retried, or only reported. -/
  archiveFailures : Bool
  archiveMode : Archive.Mode
  /-- Whether retry rounds exclude statements once more. -/
  reapplyFilterOnRetry : Bool
  splitMode : SplitMode
  stripPatterns : List String
deriving DecidableEq, Repr

namespace Config

def default : Config where
  excludedPrefixes := defaultExclusions
  maxAttempts := 5
  reconnectAttempts := 5
  archiveRoot := ⟨"fails"⟩
  archiveFailures := true
  archiveMode := .parallel
  reapplyFilterOnRetry := false
  splitMode := .scan
  stripPatterns := []

instance : Inhabited Config := ⟨default⟩

/-- The first setting that cannot work. -/
def fault? (c : Config) : Option ConfigFault :=
  if c.reconnectAttempts = 0 then some .noReconnectAttempts
  else if c.excludedPrefixes.any String.isEmpty then some .emptyExclusion
  else if c.stripPatterns.any String.isEmpty then some .emptyPattern
  else if c.archiveFailures ∧ c.archiveRoot.isEmpty then some .noArchiveRoot
  else match c.splitMode with
    | .delimiter character => if Text.isBlank character then some .blankDelimiter else none
    | .scan => none

def IsValid (c : Config) : Prop := c.fault? = none

instance (c : Config) : Decidable c.IsValid := inferInstanceAs (Decidable (c.fault? = none))

def validated (c : Config) : Except ScriptError Config :=
  match c.fault? with
  | some fault => .error (.invalidConfig fault)
  | none => .ok c

theorem validated_eq_ok_iff {c d : Config} : c.validated = .ok d ↔ c.IsValid ∧ c = d := by
  unfold validated IsValid
  cases c.fault? <;> simp

example : default.IsValid := by decide

end Config

end SqlScript
