import SqlScript.Json
import SqlScript.Retry

/-!
# Summaries

What a run did, in words and as JSON.
-/

namespace SqlScript

structure Summary where
  source : String
  split : Nat
  filtered : Nat
  stripped : Nat
  /-- The outcome folded over the first pass and all rounds. -/
  outcome : Outcome
  retryRounds : Nat
  /-- How the rounds ended; none if no retry was needed or archiving is off. -/
  retryStatus : Option Retry.Status
  /-- The directory of the failures that are left. -/
  archiveLocation : Option Path
  reconnects : Nat
deriving DecidableEq, Repr

def Statement.toJson (s : Statement) : Json :=
  .object [("ordinal", .nat s.ordinal), ("text", .string s.text)]

def Outcome.members (o : Outcome) : List (String × Json) :=
  [("attempted", .nat o.attempted), ("succeeded", .nat o.succeeded),
    ("failed", .array (o.failed.map Statement.toJson))]

def Outcome.toJson (o : Outcome) : Json := .object o.members

namespace Summary

def isClean (s : Summary) : Bool := s.outcome.isClean

/-- Adds the report of the retry rounds to the summary of a first pass. -/
def absorb (s : Summary) (report : Retry.Report) : Summary :=
  { s with
    outcome := s.outcome.andThen report.outcome
    retryRounds := report.rounds
    retryStatus := some report.status
    archiveLocation := report.archive.map (·.directory) }

def toJson (s : Summary) : Json :=
  .object <|
    [("source", .string s.source), ("split", .nat s.split), ("filtered", .nat s.filtered),
      ("stripped", .nat s.stripped)] ++
    s.outcome.members ++
    [("retry_rounds", .nat s.retryRounds),
      ("retry_status", s.retryStatus.elim .null fun status => .string status.word),
      ("archive_location", s.archiveLocation.elim .null fun path => .string path.text),
      ("reconnects", .nat s.reconnects)]

/-- The lines of the summary. What did not take place has no line. -/
def lines (s : Summary) : List String :=
  [s.source ++ ": " ++ toString s.split ++ " statements, " ++ toString s.filtered ++
      " excluded, " ++ toString s.stripped ++ " stripped",
    "  Succeeded: " ++ toString s.outcome.succeeded,
    "  Failed:    " ++ toString s.outcome.failed.length] ++
  (s.retryStatus.toList.map fun status =>
    "  Retry:     " ++ toString s.retryRounds ++ " round(s), " ++ status.word) ++
  (if 0 < s.reconnects then ["  Reconnects: " ++ toString s.reconnects] else []) ++
  ["  Archive:   " ++ s.archiveLocation.elim "none" Path.text]

def text (s : Summary) : String := "\n".intercalate s.lines

end Summary

end SqlScript
