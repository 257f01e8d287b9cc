import SqlScript.Config
import SqlScript.Scan
import SqlScript.Script
import SqlScript.Text.Removal

/-!
# Prepared scripts

A script is divided into statements, the excluded ones are left out, and patterns are removed from
the rest. Ordinals are those of the division, so that gaps show where a statement is missing.
-/

namespace SqlScript

/-- The statements of a script, divided in the given way. -/
def SplitMode.divide (text : String) : SplitMode → List Statement
  | .scan => split text
  | .delimiter character => splitOn character text

/-- The text without the patterns, removed one after another, and without blanks at its ends. -/
def stripText (patterns : List String) (text : String) : String :=
  String.ofList (Text.trim (Text.removeAll (patterns.map String.toList) text.toList))

/-- The statements without the patterns, and how many were left blank. None is touched if there are
no patterns. -/
def strip (patterns : List String) (statements : List Statement) : List Statement × Nat :=
  if patterns.isEmpty then (statements, 0)
  else
    let kept := (statements.map fun s => { s with text := stripText patterns s.text }).filter
      fun s => ! s.text.isEmpty
    (kept, statements.length - kept.length)

/-- What is left of a script to execute, and how much went on the way. -/
structure Prepared where
  statements : List Statement
  /-- Statements in the script. -/
  split : Nat
  /-- Statements left out by their leading text. -/
  filtered : Nat
  /-- Statements left blank by the removal of patterns. -/
  stripped : Nat
deriving DecidableEq, Repr

def Script.prepare (script : Script) (config : Config) : Prepared :=
  let all := config.splitMode.divide script.text
  let (allowed, filtered) := exclude config.excludedPrefixes all
  let (statements, stripped) := strip config.stripPatterns allowed
  ⟨statements, all.length, filtered, stripped⟩

/-- The context in which a scanned script ends, if it leaves a string or a comment open. -/
def Script.openEnd? (script : Script) (config : Config) : Option Scan.State :=
  match config.splitMode with
  | .scan => some (scan script.text).state |>.filter Scan.State.isUnterminated
  | .delimiter _ => none

end SqlScript
