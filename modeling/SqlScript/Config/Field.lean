import SqlScript.Config

/-!
# The fields of a configuration in JSON

The keys, in the order in which a configuration is written, and the words for its choices.
-/

namespace SqlScript

namespace Config

inductive Field where
  | excludedPrefixes
  | maxAttempts
  | reconnectAttempts
  | archiveRoot
  | archiveFailures
  | archiveMode
  | reapplyFilterOnRetry
  | splitMode
  | stripPatterns
deriving DecidableEq, Repr

namespace Field

/-- All fields, in the order in which they are written. -/
def all : List Field :=
  [excludedPrefixes, maxAttempts, reconnectAttempts, archiveRoot, archiveFailures, archiveMode,
    reapplyFilterOnRetry, splitMode, stripPatterns]

def key : Field → String
  | excludedPrefixes => "excluded_prefixes"
  | maxAttempts => "max_attempts"
  | reconnectAttempts => "reconnect_attempts"
  | archiveRoot => "archive_root"
  | archiveFailures => "archive_failures"
  | archiveMode => "archive_mode"
  | reapplyFilterOnRetry => "reapply_filter_on_retry"
  | splitMode => "split_mode"
  | stripPatterns => "strip_patterns"

def ofKey? (key : String) : Option Field := all.find? fun field => field.key = key

end Field

end Config

namespace Archive.Mode

def word : Mode → String
  | parallel => "parallel"
  | sequential => "sequential"

def ofWord? (word : String) : Option Mode := [parallel, sequential].find? (·.word = word)

end Archive.Mode

namespace SplitMode

/-- The two kinds of division, without their details. -/
inductive Kind where
  | scan
  | delimiter
deriving DecidableEq, Repr

def Kind.word : Kind → String
  | scan => "scan"
  | delimiter => "delimiter"

def Kind.ofWord? (word : String) : Option Kind := [Kind.scan, .delimiter].find? (·.word = word)

/-- The key of the kind in the object of a division. -/
def kindKey : String := "mode"

/-- The key of the delimiter in the object of a division. -/
def delimiterKey : String := "delimiter"

end SplitMode

end SqlScript
