import SqlScript.Archive.Label
import SqlScript.FileTree
import SqlScript.Text.Digits

/-!
# Archives of failed statements

A batch is a directory that holds the statements of one pass that failed, one file each, named by
position: `0.sql`, `1.sql` and so on, with the statement's text as it is. A batch is written once
and read back in numeric order.
-/

namespace SqlScript

namespace Archive

inductive Mode where
  | parallel
  | sequential
deriving DecidableEq, Repr, Inhabited

def extension : String := "sql"

/-- An archived statement: its position in the batch and its file. -/
structure Entry where
  ordinal : Nat
  path : Path
deriving DecidableEq, Repr

/-- The failed statements of one pass, on disk. -/
structure Batch where
  directory : Path
  entries : List Entry
deriving DecidableEq, Repr

/-- The greatest position a file name can stand for. -/
def maxOrdinal : Nat := UInt64.size - 1

/-- The position that a stem stands for: digits, with or without a plus sign. -/
def ordinalOfStem? (stem : String) : Option Nat :=
  let digits := match stem.toList with
    | '+' :: rest => rest
    | cs => cs
  if digits.isEmpty ∨ ¬ digits.all Char.isDigit then none
  else
    let n := Text.digitsValue digits
    if n ≤ maxOrdinal then some n else none

def ordinalOfName? (name : String) : Option Nat :=
  match Path.splitName name with
  | (stem, some ext) => if ext = extension then ordinalOfStem? stem else none
  | (_, none) => none

/-- The entry of a directory if it is a statement's file. -/
def statementFile (t : FileTree) (directory : Path) (name : String) : Option Entry :=
  let path := directory.join name
  if t.isFile path then (ordinalOfName? name).map fun ordinal => ⟨ordinal, path⟩ else none

namespace Batch

/-- The batch that a directory with these names in it holds, whatever their order. -/
def ofNames (t : FileTree) (directory : Path) (names : List String) : Batch :=
  ⟨directory,
    (names.filterMap (statementFile t directory)).mergeSort fun a b => decide (a.ordinal ≤ b.ordinal)⟩

def openAt (t : FileTree) (directory : Path) : Except ScriptError Batch :=
  if t.isDirectory directory then
    match t.names directory with
    | .ok names => .ok (ofNames t directory names)
    | .error e => .error (.archive directory e)
  else .error (.invalidArchive directory)

def size (b : Batch) : Nat := b.entries.length

def isEmpty (b : Batch) : Bool := b.entries.isEmpty

/-- Reads the files of some entries, in order. The first that cannot be read ends it. -/
def readEntries (t : FileTree) : List Entry → Except ScriptError (List String)
  | [] => .ok []
  | entry :: rest =>
      match t.readText entry.path with
      | .error e => .error (.archive entry.path e)
      | .ok text =>
          match readEntries t rest with
          | .error e => .error e
          | .ok texts => .ok (text :: texts)

def read (t : FileTree) (b : Batch) : Except ScriptError (List String) := readEntries t b.entries

/-- Whether two batches are the same, their paths compared by components. -/
def sameAs (b other : Batch) : Bool :=
  b.directory.sameAs other.directory && b.entries.length == other.entries.length &&
    (b.entries.zip other.entries).all fun (x, y) => x.ordinal == y.ordinal && x.path.sameAs y.path

end Batch

structure Job where
  path : Path
  text : String
deriving DecidableEq, Repr

def jobs (directory : Path) (failed : List Statement) : List Job :=
  failed.zipIdx.map fun (statement, ordinal) =>
    ⟨directory.join (toString ordinal ++ "." ++ extension), statement.text⟩

def entries (directory : Path) (count : Nat) : List Entry :=
  (List.range count).map fun ordinal =>
    ⟨ordinal, directory.join (toString ordinal ++ "." ++ extension)⟩

/-- Writes files in the given order, up to the first that cannot be written. -/
def writeJobs (t : FileTree) : List Job → Except ScriptError Unit × FileTree
  | [] => (.ok (), t)
  | job :: rest =>
      match t.writeText job.path job.text with
      | .error e => (.error (.archive job.path e), t)
      | .ok written => writeJobs written rest

/--
Makes the first directory under `root` whose numbered name is not taken, from a number on of which
there are so many left. If all of them are taken, the count runs over.
-/
def makeNumbered (t : FileTree) (root : Path) (base : String) :
    Nat → Nat → Except ScriptError (Path × FileTree)
  | 0, _ => .error (.archive root .overflow)
  | left + 1, number =>
      let path := root.join (numberedName base number)
      match t.makeDirectory path with
      | .ok made => .ok (path, made)
      | .error .alreadyExists => makeNumbered t root base left (number + 1)
      | .error e => .error (.archive path e)

/-- Makes a fresh directory for a batch, and the root above it. Numbers have 32 bits. -/
def makeBatchDirectory (t : FileTree) (root : Path) (label : String) (moment : Timestamp) :
    Except ScriptError Path × FileTree :=
  match t.makeDirectories root with
  | (.error e, t) => (.error (.archive root e), t)
  | (.ok (), t) =>
      match makeNumbered t root (baseName label moment) UInt32.size 0 with
      | .error e => (.error e, t)
      | .ok (path, made) => (.ok path, made)

end Archive

structure Archiver where
  root : Path
  mode : Archive.Mode
deriving DecidableEq, Repr

/-- The batch in a directory once its files were written. -/
def Archive.written (directory : Path) (count : Nat) :
    Except ScriptError Unit × FileTree → Except ScriptError Archive.Batch × FileTree
  | (.error e, t) => (.error e, t)
  | (.ok (), t) => (.ok ⟨directory, Archive.entries directory count⟩, t)

/--
Archives failed statements in a new batch. A batch that could not be written in full is reported
and never returned. Files are written in numeric order, which is as good as any other, since every
file of a batch is a file of its own.
-/
def Archiver.archive (a : Archiver) (failed : List Statement) (label : String)
    (moment : Timestamp) (t : FileTree) : Except ScriptError Archive.Batch × FileTree :=
  match Archive.makeBatchDirectory t a.root label moment with
  | (.error e, t) => (.error e, t)
  | (.ok directory, t) =>
      Archive.written directory failed.length
        (Archive.writeJobs t (Archive.jobs directory failed))

end SqlScript
