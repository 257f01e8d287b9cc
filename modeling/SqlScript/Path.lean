import SqlScript.Delimited

/-!
# Paths

A path is kept as it was given, since diagnostics show it so. Its pieces are what stands between
the slashes; its components are its normal form, in which repeated and trailing slashes and inner
dots have no place.
-/

namespace SqlScript

structure Path where
  text : String
deriving DecidableEq, Repr, Inhabited

namespace Path

instance : ToString Path := ⟨text⟩

def isEmpty (path : Path) : Bool := path.text.isEmpty

def isAbsolute (path : Path) : Bool := path.text.toList.head? == some '/'

/-- What stands between slashes, the empty pieces included. -/
def pieces (path : Path) : List String :=
  (Text.pieces '/' path.text.toList).map String.ofList

/-- The normal form of a path: a dot counts only where it leads a relative path. -/
structure Components where
  absolute : Bool
  names : List String
deriving DecidableEq, Repr

def components (path : Path) : Components :=
  let named := path.pieces.filter fun piece => piece ≠ "" ∧ piece ≠ "."
  if path.pieces.head? = some "." then ⟨false, "." :: named⟩ else ⟨path.isAbsolute, named⟩

def sameAs (path other : Path) : Bool := path.components == other.components

def Components.toPath (c : Components) : Path :=
  ⟨(if c.absolute then "/" else "") ++ "/".intercalate c.names⟩

/-- The path without its last component, if it has one. -/
def parent? (path : Path) : Option Path :=
  let c := path.components
  if c.names.isEmpty then none else some { c with names := c.names.dropLast }.toPath

def fileName? (path : Path) : Option String :=
  path.components.names.getLast?.filter fun name => name ≠ "." ∧ name ≠ ".."

/-- A name cut at its last dot. A dot that leads the name does not count. -/
def splitName (name : String) : String × Option String :=
  let reversed := name.toList.reverse
  let extension := reversed.takeWhile (· ≠ '.')
  match reversed.drop extension.length with
  | _ :: c :: stem => (String.ofList (c :: stem).reverse, some (String.ofList extension.reverse))
  | _ => (name, none)

def stem? (path : Path) : Option String := path.fileName?.map fun name => (splitName name).1

/-- The path of an entry of a directory. A slash is added where one is needed. -/
def join (directory : Path) (name : String) : Path :=
  if directory.isEmpty ∨ directory.text.toList.getLast? = some '/' then ⟨directory.text ++ name⟩
  else ⟨directory.text ++ "/" ++ name⟩

/-- The path and the paths above it, each without the last component of the one before. -/
def lineage (path : Path) : List Path :=
  let c := path.components
  path :: ((List.range c.names.length).reverse.map fun n =>
    { c with names := c.names.take n }.toPath)

end Path

end SqlScript
