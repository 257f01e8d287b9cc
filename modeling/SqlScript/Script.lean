import SqlScript.FileTree

/-!
# Scripts

The text of a script with a label, which names it in diagnostics and in archives.
-/

namespace SqlScript

/-- Where a script's text came from. -/
inductive Script.Origin where
  | file (path : Path)
  | inline
deriving DecidableEq, Repr

structure Script where
  label : String
  origin : Script.Origin
  text : String
deriving DecidableEq, Repr

namespace Script

/-- A script held in memory. -/
def ofText (label text : String) : Script := ⟨label, .inline, text⟩

/-- The label of a script file: its name without the extension. -/
def labelOf (path : Path) : String := path.stem?.getD "script"

/-- Loads a script. -/
def load (t : FileTree) (path : Path) : Except ScriptError Script :=
  match t.readText path with
  | .error e => .error (.scriptRead path e)
  | .ok text => .ok ⟨labelOf path, .file path, text⟩

end Script

end SqlScript
