import SqlScript.Command

/-!
# The program

The outer layer: it takes up the files that a command names, has the command carried out on them
and puts down what it made.
-/

namespace SqlScript.Program

/-- Takes up what lies at a path and the directories on the way to it. -/
def takeUp (t : FileTree) (path : Path) : IO FileTree := do
  let work ← IO.currentDir
  let mut t := t
  for above in path.lineage.reverse do
    let here := work / above.text
    if let .ok place := t.locate above then
      if ← here.isDir then t := t.put place .directory
      else if ← here.pathExists then t := t.put place (.file (← IO.FS.readBinFile here))
  return t

/-- Takes up a directory with the entries in it. -/
def takeUpEntries (t : FileTree) (path : Path) : IO FileTree := do
  let mut t ← takeUp t path
  let here := (← IO.currentDir) / path.text
  if ← here.isDir then
    for entry in ← here.readDir do
      t ← takeUp t (path.join entry.fileName)
  return t

/-- The files that a command may touch. -/
def takeUpFor (arguments : List String) : IO FileTree := do
  let work : Path := ⟨(← IO.currentDir).toString⟩
  let t ← takeUp { nodes := [], workDirectory := work.components.names } work
  let .ok i := Command.parse arguments | return t
  let t ← match i.globals.config with
    | some path => takeUp t path
    | none => pure t
  let t ← takeUpEntries t i.target
  match Command.loadConfig t i.globals.config i.options with
  | .ok config => takeUpEntries t config.archiveRoot
  | .error _ => return t

/-- Puts down what is in the later tree and not in the earlier one. -/
def putDown (before after : FileTree) : IO Unit := do
  for (place, node) in after.nodes.reverse do
    if (before.node? place).isNone then
      let target := "/" ++ "/".intercalate place
      match node with
      | .directory => IO.FS.createDir target
      | .file content => IO.FS.writeBinFile target content

/-- The time of day, by that of a file made for it. -/
def timeOfDay : IO Timestamp := do
  let (_, file) ← IO.FS.createTempFile
  let made := (← file.metadata).modified
  IO.FS.removeFile file
  return .ofSeconds made.sec

end SqlScript.Program

open SqlScript in
def main (arguments : List String) : IO UInt32 := do
  let before ← Program.takeUpFor arguments
  let (finished, after) :=
    Command.program arguments (← IO.getEnv "DATABASE_URL") (← Program.timeOfDay) before
  Program.putDown before after
  finished.log.forM IO.eprintln
  IO.print finished.output
  finished.error.forM IO.eprintln
  return finished.exitCode
