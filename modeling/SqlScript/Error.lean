import SqlScript.Outcome
import SqlScript.Path

/-!
# Errors

Every way in which work on a script can fail, as a cause. The wording of a cause is in one place
each: `FileError.message`, `ConfigFault.message`, `ScriptError.message?`.
-/

namespace SqlScript

inductive FileError where
  | notFound
  | alreadyExists
  | notDirectory
  | isDirectory
  | nameTooLong
  | nulInName
  | invalidText
  /--
  A count of 32 bits ran over. That is no answer of the system: a program does not get past it.
  -/
  | overflow
  /-- A failure that the system described in its own words. -/
  | other (text : String)
deriving DecidableEq, Repr

def FileError.message : FileError → String
  | notFound => "No such file or directory (os error 2)"
  | alreadyExists => "File exists (os error 17)"
  | notDirectory => "Not a directory (os error 20)"
  | isDirectory => "Is a directory (os error 21)"
  | nameTooLong => "File name too long (os error 36)"
  | nulInName => "file name contained an unexpected NUL byte"
  | invalidText => "stream did not contain valid UTF-8"
  | overflow => "attempt to add with overflow"
  | other text => text

/-- Why the database driver failed. Its wording is its own. -/
inductive DriverError where
  | io
  | tls
  | protocol
  | poolTimedOut
  | poolClosed
  | workerCrashed
  | configuration
  | rowNotFound
  | columnNotFound
  | encode
  | decode
  | rejected
deriving DecidableEq, Repr

/-- Whether the session is gone, as opposed to the request being wrong. -/
def DriverError.isFault : DriverError → Bool
  | io | tls | protocol | poolTimedOut | poolClosed | workerCrashed => true
  | _ => false

inductive JsonFault where
  | endOfText
  /-- It is not JSON. -/
  | malformed
  /-- It is JSON of another shape than the one asked for. -/
  | mismatch
deriving DecidableEq, Repr

inductive ConfigFault where
  | noReconnectAttempts
  | emptyExclusion
  | emptyPattern
  | noArchiveRoot
  | blankDelimiter
  /-- A fault found outside the configuration's own checks. -/
  | other (text : String)
deriving DecidableEq, Repr

def ConfigFault.message : ConfigFault → String
  | noReconnectAttempts => "reconnect_attempts must be at least 1"
  | emptyExclusion => "excluded_prefixes must not contain an empty prefix"
  | emptyPattern => "strip_patterns must not contain an empty pattern"
  | noArchiveRoot => "archive_root must be set when archiving failures"
  | blankDelimiter => "split delimiter must not be whitespace"
  | other text => text

inductive ScriptError where
  | database (cause : DriverError)
  | statement (text : String)
  /-- The session dropped during an operation. -/
  | connectionLost (text : String)
  /-- The session was closed when an operation was asked for. -/
  | notConnected
  | io (cause : FileError)
  | scriptRead (path : Path) (cause : FileError)
  /-- An archive of failed statements could not be written or read. -/
  | archive (path : Path) (cause : FileError)
  | invalidArchive (path : Path)
  | invalidConfig (cause : ConfigFault)
  /-- A run stopped because its failed statements could not be archived. -/
  | aborted (outcome : Outcome) (source : ScriptError)
  | serialization (cause : JsonFault)
deriving DecidableEq, Repr

namespace ScriptError

/--
Whether the session died, as opposed to the request being wrong. Only then is a new session and a
second attempt worth it.
-/
def isConnectionFault : ScriptError → Bool
  | database cause => cause.isFault
  | connectionLost _ | notConnected => true
  | _ => false

/-- The error in words; none where they belong to the driver or to the reader of JSON. -/
def message? : ScriptError → Option String
  | database _ | serialization _ => none
  | statement text => some ("Statement failed: " ++ text)
  | connectionLost text => some ("Connection lost: " ++ text)
  | notConnected => some "Not connected"
  | io cause => some ("IO error: " ++ cause.message)
  | scriptRead path cause =>
      some ("Failed to read script '" ++ path.text ++ "': " ++ cause.message)
  | archive path cause => some ("Archive error at '" ++ path.text ++ "': " ++ cause.message)
  | invalidArchive path => some ("Not an archive directory: " ++ path.text)
  | invalidConfig cause => some ("Invalid configuration: " ++ cause.message)
  | aborted outcome source => source.message?.map fun text =>
      "Run aborted with " ++ toString outcome.succeeded ++ " succeeded and " ++
        toString outcome.failed.length ++ " failed statement(s): " ++ text

/-- The messages of what caused the error, nearest first. -/
def causes : ScriptError → List String
  | io cause | scriptRead _ cause | archive _ cause => [cause.message]
  | aborted _ source => source.message?.toList ++ source.causes
  | _ => []

end ScriptError

end SqlScript
