import SqlScript.Command.Arguments
import SqlScript.Config.Reader
import SqlScript.Connection.IntegerQueries
import SqlScript.Runner
import SqlScript.Text.Diagnostic

/-!
# Carrying out commands

A command works on files and a database and leaves an exit code, an output, a log and, if it
failed, a description of the error with its causes.
-/

namespace SqlScript.Command

def versionText : String := "oxide-script 0.1.0\n"

def defaultDatabase : String := "sqlite:db.sqlite3"

structure Finished where
  exitCode : UInt32
  output : String
  log : List String
  /-- The description of the error that ended the command. -/
  error : Option String
deriving DecidableEq, Repr

/-- The error in words, or in a general word where its wording belongs to another party. -/
def headline (e : ScriptError) : String :=
  match e.message?, e with
  | some text, _ => text
  | none, .serialization _ => "Serialization error"
  | none, _ => "Database error"

/-- The lines of a cause, indented; a number may stand before the first. -/
def causeText (number : Option Nat) (text : String) : String :=
  let (first, later) := match number with
    | some n => (String.ofList (List.replicate (5 - (toString n).length) ' ') ++ toString n ++ ": ",
        "       ")
    | none => ("    ", "    ")
  first ++ ("\n" ++ later).intercalate ((Text.pieces '\n' text.toList).map String.ofList)

/-- The description of an error. Causes are numbered if there are several. -/
def describe (e : ScriptError) : String :=
  let causes := e.causes
  let blocks :=
    if causes.length ≤ 1 then causes.map (causeText none)
    else causes.zipIdx.map fun (text, n) => causeText (some n) text
  "Error: " ++ headline e ++
    (if blocks.isEmpty then "" else "\n\nCaused by:\n" ++ "\n".intercalate blocks)

/-- The warning about a script that ends in a string or a comment. -/
def openEndLog (script : Script) (config : Config) : List String :=
  (script.openEnd? config).toList.map fun state =>
    " WARN Script ends unterminated, flushing the remainder as-is script=" ++
      Text.quoteDiagnostic script.label ++ " state=" ++ state.description

def succeeded (output : String) (log : List String) : Finished := ⟨0, output, log, none⟩

def failed (output : String) (log : List String) (e : ScriptError) : Finished :=
  ⟨1, output, log, some (describe e)⟩

/--
The configuration of a command: a file or the defaults, with the options applied. A file is checked
before and after that.
-/
def loadConfig (t : FileTree) (path : Option Path) (options : Options) :
    Except ScriptError Config :=
  match path.elim (.ok .default) (Config.load t) with
  | .error e => .error e
  | .ok c => (options.apply c).validated

/-- A statement with its ordinal, on lines of its own. -/
def statementLine (s : Statement) : String := "[" ++ toString s.ordinal ++ "] " ++ s.text ++ "\n"

def lines (texts : List String) : String := String.join texts

/-- A prepared script as JSON, its keys in alphabetic order. -/
def preparedJson (source : String) (p : Prepared) : Json :=
  .object
    [("filtered", .nat p.filtered), ("source", .string source), ("split", .nat p.split),
      ("statements", .array (p.statements.map Statement.toJson)), ("stripped", .nat p.stripped)]

def showStatements (json : Bool) (script : Script) (config : Config) : Finished :=
  let prepared := script.prepare config
  let warning := openEndLog script config
  if json then succeeded ((preparedJson script.label prepared).pretty ++ "\n") warning
  else
    succeeded (lines (prepared.statements.map statementLine))
      (warning ++
        [" INFO " ++ toString prepared.split ++ " statements, " ++ toString prepared.filtered ++
          " excluded, " ++ toString prepared.stripped ++ " stripped"])

def summaryOutput (json : Bool) (s : Summary) : String :=
  (if json then s.toJson.pretty else s.text) ++ "\n"

def outcomeOutput (json : Bool) (o : Outcome) : String :=
  if json then o.toJson.pretty ++ "\n"
  else lines (("Succeeded: " ++ toString o.succeeded ++ "\n") :: "Failed (not archived):\n" ::
    o.failed.map statementLine)

/-- What a command prints about its run. An aborted run shows what it managed. -/
def runOutput (json : Bool) (log : List String) : Except ScriptError Summary → Finished
  | .ok summary => succeeded (summaryOutput json summary) log
  | .error e =>
      match e with
      | .aborted outcome _ => failed (outcomeOutput json outcome) log e
      | _ => failed "" log e

/-- Does some work in a session on a database. -/
def inSession (t : FileTree) (now : Timestamp) (address : String) (log : List String)
    (json : Bool)
    (work : World (Resilient IntegerQueries.Session) →
      Run × World (Resilient IntegerQueries.Session)) : Finished × FileTree :=
  match IntegerQueries.connect t address with
  | .error e => (failed "" log e, t)
  | .ok session =>
      match work ⟨.wrap session, t, now⟩ with
      | (run, w) => (runOutput json log run.result, w.files)

def onScript (i : Invocation) (address : String) (now : Timestamp) (t : FileTree)
    (config : Config) : Finished × FileTree :=
  match Script.load t i.target with
  | .error e => (failed "" [] e, t)
  | .ok script =>
      if i.action = .split then (showStatements i.globals.json script config, t)
      else inSession t now address (openEndLog script config) i.globals.json
        (script.run config IntegerQueries.connection)

/-- The label of new batches: the given one, or the name of the batch that is retried. -/
def Invocation.batchLabel (i : Invocation) : String :=
  i.label.getD (i.target.fileName?.getD "retry")

def onBatch (i : Invocation) (address : String) (now : Timestamp) (t : FileTree)
    (config : Config) : Finished × FileTree :=
  match Archive.Batch.openAt t i.target with
  | .error e => (failed "" [] e, t)
  | .ok batch =>
      let log := [" INFO Retrying " ++ toString batch.size ++ " archived statements from " ++
        i.target.text]
      inSession t now address log i.globals.json
        (batch.run i.batchLabel config IntegerQueries.connection)

/--
Carries out a command. `database` is the address that the surroundings name, if any; one on the
command line goes before it.
-/
def Invocation.perform (i : Invocation) (database : Option String) (now : Timestamp)
    (t : FileTree) : Finished × FileTree :=
  let address := i.globals.database.getD (database.getD defaultDatabase)
  match loadConfig t i.globals.config i.options with
  | .error e => (failed "" [] e, t)
  | .ok config =>
      if i.action = .retry then onBatch i address now t config
      else onScript i address now t config

def program (arguments : List String) (database : Option String) (now : Timestamp)
    (t : FileTree) : Finished × FileTree :=
  match parse arguments with
  | .error .usage => (⟨2, "", [], none⟩, t)
  | .error .version => (succeeded versionText [], t)
  | .ok i => i.perform database now t

end SqlScript.Command
