import SqlScript.Error

/-!
# Files

A tree of directories and files, and the operations on it with the rules of the system calls: a
path is walked piece by piece, each piece in an existing directory; names have at most 255 bytes
and paths fewer than 4096. There are no links. A tree may refuse changes at some places, as a full
or protected disk does, and keep what is at some places from being read.

The tree is a table from locations to nodes. A location is the list of names from the root, which
is always a directory.
-/

namespace SqlScript

inductive FileNode where
  | directory
  | file (content : ByteArray)

instance : DecidableEq FileNode
  | .directory, .directory => isTrue rfl
  | .directory, .file _ => isFalse nofun
  | .file _, .directory => isFalse nofun
  | .file first, .file second =>
      match ByteArray.instDecidableEq first second with
      | isTrue h => isTrue (congrArg FileNode.file h)
      | isFalse h => isFalse fun hsame => h (FileNode.file.inj hsame)

abbrev Location := List String

structure FileTree where
  nodes : List (Location × FileNode)
  workDirectory : Location
  /-- Why nothing can be made or written at a place, if so. -/
  refuses : Location → Option FileError := fun _ => none
  /-- Why what is at a place cannot be read, if so. -/
  hides : Location → Option FileError := fun _ => none

namespace FileTree

def nameLimit : Nat := 255

/-- A path has fewer bytes than this. -/
def pathLimit : Nat := 4096

def empty : FileTree where
  nodes := [(["work"], .directory)]
  workDirectory := ["work"]

instance : Inhabited FileTree := ⟨empty⟩

def node? (t : FileTree) (place : Location) : Option FileNode :=
  if place = [] then some .directory else t.nodes.lookup place

def put (t : FileTree) (place : Location) (node : FileNode) : FileTree :=
  if (t.nodes.lookup place).isSome then
    { t with nodes := t.nodes.map fun entry => if entry.1 = place then (place, node) else entry }
  else { t with nodes := (place, node) :: t.nodes }

@[simp] theorem node?_root (t : FileTree) : t.node? [] = some .directory := rfl

@[simp] theorem workDirectory_put (t : FileTree) (place : Location) (node : FileNode) :
    (t.put place node).workDirectory = t.workDirectory := by
  unfold put
  split <;> rfl

@[simp] theorem refuses_put (t : FileTree) (place : Location) (node : FileNode) :
    (t.put place node).refuses = t.refuses := by
  unfold put
  split <;> rfl

@[simp] theorem hides_put (t : FileTree) (place : Location) (node : FileNode) :
    (t.put place node).hides = t.hides := by
  unfold put
  split <;> rfl

theorem lookup_replace (nodes : List (Location × FileNode)) (place other : Location)
    (node : FileNode) :
    (nodes.map fun entry => if entry.1 = place then (place, node) else entry).lookup other =
      if other = place then (nodes.lookup place).map fun _ => node else nodes.lookup other := by
  induction nodes with
  | nil => simp
  | cons entry rest ih =>
    obtain ⟨here, old⟩ := entry
    by_cases hp : here = place
    · subst hp
      by_cases ho : other = here
      · simp [ho]
      · simp [List.lookup_cons, beq_eq_false_iff_ne.2 ho, ih, ho]
    · by_cases ho : other = place
      · subst ho
        simp [List.lookup_cons, beq_eq_false_iff_ne.2 (Ne.symm hp), ih, hp]
      · simp [List.lookup_cons, ih, hp, ho]

theorem node?_put_self (t : FileTree) {place : Location} (h : place ≠ []) (node : FileNode) :
    (t.put place node).node? place = some node := by
  simp only [node?, if_neg h, put]
  by_cases found : (t.nodes.lookup place).isSome
  · obtain ⟨old, hold⟩ := Option.isSome_iff_exists.1 found
    simp [lookup_replace, hold]
  · simp [found]

theorem node?_put_of_ne (t : FileTree) {place other : Location} (h : other ≠ place)
    (node : FileNode) : (t.put place node).node? other = t.node? other := by
  have hne : (other == place) = false := by simpa using h
  simp only [node?, put]
  by_cases found : (t.nodes.lookup place).isSome
  · simp [found, lookup_replace, h]
  · simp [found, List.lookup_cons, hne]

/-- The names of a directory's entries, in the order in which the tree holds them. -/
def namesAt (t : FileTree) (place : Location) : List String :=
  t.nodes.filterMap fun entry =>
    if entry.1.dropLast = place then entry.1.getLast? else none

/-- One step of a walk: from a directory to the place that a piece of a path names. -/
def step (t : FileTree) (place : Location) (piece : String) : Except FileError Location :=
  match t.node? place with
  | none => .error .notFound
  | some (.file _) => .error .notDirectory
  | some .directory =>
      if piece = "" ∨ piece = "." then .ok place
      else if piece = ".." then .ok place.dropLast
      else if nameLimit < piece.utf8ByteSize then .error .nameTooLong
      else .ok (place ++ [piece])

/-- Walks the pieces of a path. The place that the last one names need not exist. -/
def walk (t : FileTree) : Location → List String → Except FileError Location
  | place, [] => .ok place
  | place, piece :: rest =>
      match t.step place piece with
      | .error e => .error e
      | .ok next => t.walk next rest

/-- Where walks along a path start. Refuses what is no path at all. -/
def base (t : FileTree) (path : Path) : Except FileError Location :=
  if path.text.toList.contains '\x00' then .error .nulInName
  else if path.isEmpty then .error .notFound
  else if pathLimit ≤ path.text.utf8ByteSize then .error .nameTooLong
  else .ok (if path.isAbsolute then [] else t.workDirectory)

/-- The place that a path names, whether or not something is there. -/
def locate (t : FileTree) (path : Path) : Except FileError Location :=
  match t.base path with
  | .error e => .error e
  | .ok place => t.walk place path.pieces

def isDirectory (t : FileTree) (path : Path) : Bool :=
  match t.locate path with
  | .ok place => t.node? place == some .directory
  | .error _ => false

def isFile (t : FileTree) (path : Path) : Bool :=
  match t.locate path with
  | .ok place => (t.node? place).any fun node => node != .directory
  | .error _ => false

def readBytes (t : FileTree) (path : Path) : Except FileError ByteArray :=
  match t.locate path with
  | .error e => .error e
  | .ok place =>
      match t.node? place, t.hides place with
      | none, _ => .error .notFound
      | some _, some e => .error e
      | some .directory, none => .error .isDirectory
      | some (.file content), none => .ok content

/-- The text of a file, which has to be UTF-8. -/
def readText (t : FileTree) (path : Path) : Except FileError String :=
  match t.readBytes path with
  | .error e => .error e
  | .ok content =>
      match String.fromUTF8? content with
      | some text => .ok text
      | none => .error .invalidText

def names (t : FileTree) (path : Path) : Except FileError (List String) :=
  match t.locate path with
  | .error e => .error e
  | .ok place =>
      match t.node? place, t.hides place with
      | none, _ => .error .notFound
      | some (.file _), _ => .error .notDirectory
      | some .directory, some e => .error e
      | some .directory, none => .ok (t.namesAt place)

/-- Writes a file, anew or over an old one. Its directory has to exist. -/
def write (t : FileTree) (path : Path) (content : ByteArray) : Except FileError FileTree :=
  match t.locate path with
  | .error e => .error e
  | .ok place =>
      match t.node? place, t.refuses place with
      | some .directory, _ => .error .isDirectory
      | _, some e => .error e
      | _, none => .ok (t.put place (.file content))

def writeText (t : FileTree) (path : Path) (text : String) : Except FileError FileTree :=
  t.write path text.toUTF8

/-- Makes one directory. Slashes at the end of the path do not count. -/
def makeDirectory (t : FileTree) (path : Path) : Except FileError FileTree :=
  match t.base path with
  | .error e => .error e
  | .ok start =>
      match t.walk start (path.pieces.reverse.dropWhile (· = "")).reverse with
      | .error e => .error e
      | .ok place =>
          match t.node? place, t.refuses place with
          | some _, _ => .error .alreadyExists
          | none, some e => .error e
          | none, none => .ok (t.put place .directory)

/--
Makes the first directory of a lineage. If its parent is missing, the rest of the lineage is made
first; that it is a directory already is no failure.
-/
def makeLineage (t : FileTree) : List Path → Except FileError Unit × FileTree
  | [] => (.ok (), t)
  | path :: above =>
      if path.isEmpty then (.ok (), t)
      else match t.makeDirectory path with
        | .ok made => (.ok (), made)
        | .error .notFound =>
            match t.makeLineage above with
            | (.error e, below) => (.error e, below)
            | (.ok (), below) =>
                match below.makeDirectory path with
                | .ok made => (.ok (), made)
                | .error e => (if below.isDirectory path then .ok () else .error e, below)
        | .error e => (if t.isDirectory path then .ok () else .error e, t)

/-- Makes a directory and what is missing above it. -/
def makeDirectories (t : FileTree) (path : Path) : Except FileError Unit × FileTree :=
  t.makeLineage path.lineage

/-- Removes a file, or a directory with all that it holds. A work directory itself stays. -/
def remove (t : FileTree) (path : Path) : FileTree :=
  match t.locate path with
  | .error _ => t
  | .ok place =>
      { t with nodes := t.nodes.filter fun entry =>
          ! place.isPrefixOf entry.1 || entry.1 == t.workDirectory }

inductive Change where
  | write (path : Path) (content : ByteArray)
  | makeDirectory (path : Path)
  | remove (path : Path)

/-- Carries out a change as far as it goes. A write makes the directories above its file. -/
def change (t : FileTree) : Change → FileTree
  | .write path content =>
      let t := match path.parent? with
        | some parent => (t.makeDirectories parent).2
        | none => t
      match t.write path content with
      | .ok written => written
      | .error _ => t
  | .makeDirectory path => (t.makeDirectories path).2
  | .remove path => t.remove path

def changes (t : FileTree) (cs : List Change) : FileTree := cs.foldl change t

end FileTree

end SqlScript
