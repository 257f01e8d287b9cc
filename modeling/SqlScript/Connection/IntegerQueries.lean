import SqlScript.Connection
import SqlScript.Delimited

/-!
# A database of integer queries

A stand-in for a database engine: it knows comments and queries for one integer, and rejects every
other statement. A session belongs to a file that has to lie in an existing directory.
-/

namespace SqlScript

namespace IntegerQueries

structure Session where
  connected : Bool
deriving DecidableEq, Repr

/-- Whether a scan for comments is in one. -/
inductive Context where
  | plain
  | dash
  | line
  | slash
  | block
  | star
deriving DecidableEq

/-- The text with a blank in place of every comment. One that is not closed ends with the text. -/
def blankComments : Context → List Char → List Char
  | .dash, [] => ['-']
  | .slash, [] => ['/']
  | _, [] => []
  | .plain, '-' :: rest => blankComments .dash rest
  | .plain, '/' :: rest => blankComments .slash rest
  | .plain, c :: rest => c :: blankComments .plain rest
  | .dash, '-' :: rest => blankComments .line rest
  | .dash, c :: rest => '-' :: c :: blankComments .plain rest
  | .line, '\n' :: rest => '\n' :: blankComments .plain rest
  | .line, _ :: rest => blankComments .line rest
  | .slash, '*' :: rest => blankComments .block rest
  | .slash, c :: rest => '/' :: c :: blankComments .plain rest
  | .block, '*' :: rest => blankComments .star rest
  | .block, _ :: rest => blankComments .block rest
  | .star, '/' :: rest => ' ' :: blankComments .plain rest
  | .star, '*' :: rest => blankComments .star rest
  | .star, _ :: rest => blankComments .block rest

/-- The blanks between words of a query. -/
def isSpace (c : Char) : Bool := c == ' ' || c == '\t' || c == '\n' || c == '\x0c' || c == '\r'

/-- A query for one integer, or nothing at all. -/
def isQuery (text : List Char) : Bool :=
  let words := text.dropWhile isSpace
  if words.isEmpty then true
  else
    let verb := words.take 6
    let rest := words.drop 6
    let operand := Text.dropEndWhile isSpace (rest.dropWhile isSpace)
    let digits := match operand with
      | '-' :: digits => digits
      | digits => digits
    verb.map Char.toUpper == "SELECT".toList && rest.head?.any isSpace && ! digits.isEmpty &&
      digits.all Char.isDigit

def accepts (sql : String) : Bool :=
  (Text.pieces ';' (blankComments .plain sql.toList)).all isQuery

def request (sql : String) (answer : α) : Operation Session α := fun w =>
  if ! w.session.connected then (.error .notConnected, w)
  else if accepts sql then (.ok answer, w)
  else (.error (.database .rejected), w)

def connection : Connection Session where
  execute sql := request sql 0
  fetch sql := request sql []
  disconnect w := (.ok (), { w with session := ⟨false⟩ })
  reconnect w := (.ok (), { w with session := ⟨true⟩ })

/-- What of a database's address follows a scheme and two slashes, if they are there. -/
def dropScheme (lead : List Char) : Nat → List Char → List Char
  | 0, address => address
  | fuel + 1, address =>
      if lead.isPrefixOf address then dropScheme lead fuel (address.drop lead.length) else address

/-- The file of an address and the options behind its question mark. -/
def addressParts (address : String) : Path × List String :=
  let chars := address.toList
  let chars := dropScheme "sqlite:".toList chars.length chars
  let chars := dropScheme "//".toList chars.length chars
  let options := (chars.dropWhile (· ≠ '?')).drop 1
  (⟨String.ofList (chars.takeWhile (· ≠ '?'))⟩,
    ((Text.pieces '&' options).filter (! ·.isEmpty)).map String.ofList)

def knownOptions : List String :=
  ["mode=ro", "mode=rw", "mode=rwc", "mode=memory", "cache=private", "cache=shared",
    "immutable=true", "immutable=false", "immutable=1", "immutable=0"]

/-- Opens a session. A file that is missing would be made, unless the address forbids it. -/
def connect (t : FileTree) (address : String) : Except ScriptError Session :=
  let (file, options) := addressParts address
  if options.any fun option => ! knownOptions.contains option then
    .error (.database .configuration)
  else if file.isEmpty ∨ file.text = ":memory:" ∨ options.contains "mode=memory" then .ok ⟨true⟩
  else match t.locate file with
    | .error _ => .error (.database .rejected)
    | .ok place =>
        match t.node? place with
        | some .directory => .error (.database .rejected)
        | some (.file _) => .ok ⟨true⟩
        | none => if options.contains "mode=ro" then .error (.database .rejected) else .ok ⟨true⟩

end IntegerQueries

end SqlScript
