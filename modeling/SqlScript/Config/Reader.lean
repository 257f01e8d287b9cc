import SqlScript.Config.Field
import SqlScript.Json.Reader

/-!
# Reading a configuration

A configuration is a JSON object whose missing fields keep their default and whose unknown keys
are skipped, or an array of the fields in their order, from which the last ones may be missing. The
first fault met from left to right is the answer.
-/

namespace SqlScript

open Json

def readChoice (ofWord? : String → Option α) (text : List Char) :
    Except JsonFault (α × List Char) := do
  let (word, rest) ← readString text
  match ofWord? word with
  | some choice => return (choice, rest)
  | none => throw .mismatch

/-- Reads how archives are written: a word, or an object with the word as its key and null. -/
def Archive.Mode.read (text : List Char) : Except JsonFault (Archive.Mode × List Char) :=
  match skipBlank text with
  | [] => .error .endOfText
  | '\x22' :: rest => readChoice ofWord? ('\x22' :: rest)
  | '\x7b' :: rest => do
      let (mode, rest) ← readChoice ofWord? rest
      let rest ← afterColon rest
      match skipBlank rest with
      | 'n' :: rest =>
          match skipBlank (← readWord ['u', 'l', 'l'] rest) with
          | [] => throw .endOfText
          | '\x7d' :: rest => return (mode, rest)
          | _ => throw .malformed
      | other => throw (mismatchOf other)
  | _ => .error .malformed

namespace SplitMode

/-- Levels left for containers in the object of a division: it stands in that of a configuration. -/
def innerDepth : Nat := depthLimit - 2

def ofDelimiter : Json → Except JsonFault SplitMode
  | .string text =>
      match text.toList with
      | [character] => .ok (.delimiter character)
      | _ => .error .mismatch
  | _ => .error .mismatch

/-- The division of a kind, with the other members of its object. -/
def ofMembers (members : List (String × Json)) : Kind → Except JsonFault SplitMode
  | .scan => .ok .scan
  | .delimiter =>
      match members.filter fun member => member.1 = delimiterKey with
      | [(_, value)] => ofDelimiter value
      | _ => .error .mismatch

/-- The division of a kind, with the items behind it in its array. -/
def ofItems : List Json → Kind → Except JsonFault SplitMode
  | [], .scan => .ok .scan
  | [value], .delimiter => ofDelimiter value
  | _, _ => .error .mismatch

/-- Reads the members of a division's object: its kind, wherever it stands, and the others. -/
def readMembers : Nat → Bool → Option Kind → List Char →
    Except JsonFault (Option Kind × List (String × Json) × List Char)
  | 0, _, _, _ => .error .endOfText
  | fuel + 1, first, kind?, text =>
      match skipBlank text with
      | [] => .error .endOfText
      | '\x7d' :: rest => .ok (kind?, [], rest)
      | text => do
          let (key, rest) ← readQuoted (← openKey (← nextItem '\x7d' first text))
          if key = kindKey then
            if kind?.isSome then throw .mismatch
            let (kind, rest) ← readChoice Kind.ofWord? (← afterColon rest)
            readMembers fuel false (some kind) rest
          else
            let rest ← afterColon rest
            let (value, rest) ← readValue (fuelFor rest) innerDepth rest
            let (kind?, members, rest) ← readMembers fuel false kind? rest
            return (kind?, (key, value) :: members, rest)

/-- Reads a division: an object with its kind, or an array that starts with it. -/
def read (text : List Char) : Except JsonFault (SplitMode × List Char) :=
  match skipBlank text with
  | '\x7b' :: rest => do
      match ← readMembers (fuelFor rest) true none rest with
      | (some kind, members, rest) => return (← ofMembers members kind, rest)
      | (none, _, _) => throw .mismatch
  | '[' :: rest =>
      match skipBlank rest with
      | [] => .error .endOfText
      | ']' :: _ => .error .mismatch
      | text => do
          let (kind, rest) ← readChoice Kind.ofWord? text
          let (items, rest) ← readItems (fuelFor rest) innerDepth false rest
          return (← ofItems items kind, rest)
  | other => .error (mismatchOf other)

end SplitMode

namespace Config

def readField (c : Config) (text : List Char) : Field → Except JsonFault (Config × List Char)
  | .excludedPrefixes => do
      let (value, rest) ← readStrings text
      return ({ c with excludedPrefixes := value }, rest)
  | .maxAttempts => do
      let (value, rest) ← readWord32 text
      return ({ c with maxAttempts := value }, rest)
  | .reconnectAttempts => do
      let (value, rest) ← readWord32 text
      return ({ c with reconnectAttempts := value }, rest)
  | .archiveRoot => do
      let (value, rest) ← readString text
      return ({ c with archiveRoot := ⟨value⟩ }, rest)
  | .archiveFailures => do
      let (value, rest) ← readBool text
      return ({ c with archiveFailures := value }, rest)
  | .archiveMode => do
      let (value, rest) ← Archive.Mode.read text
      return ({ c with archiveMode := value }, rest)
  | .reapplyFilterOnRetry => do
      let (value, rest) ← readBool text
      return ({ c with reapplyFilterOnRetry := value }, rest)
  | .splitMode => do
      let (value, rest) ← SplitMode.read text
      return ({ c with splitMode := value }, rest)
  | .stripPatterns => do
      let (value, rest) ← readStrings text
      return ({ c with stripPatterns := value }, rest)

/-- Reads the members of a configuration's object. A field may be given once. -/
def readMembers : Nat → Bool → List Field → Config → List Char →
    Except JsonFault (Config × List Char)
  | 0, _, _, _, _ => .error .endOfText
  | fuel + 1, first, seen, c, text =>
      match skipBlank text with
      | [] => .error .endOfText
      | '\x7d' :: rest => .ok (c, rest)
      | text => do
          let (key, rest) ← readQuoted (← openKey (← nextItem '\x7d' first text))
          match Field.ofKey? key with
          | some field =>
              if field ∈ seen then throw .mismatch
              let (c, rest) ← c.readField (← afterColon rest) field
              readMembers fuel false (field :: seen) c rest
          | none =>
              let rest ← afterColon rest
              let rest ← skipValue (fuelFor rest) rest
              readMembers fuel false seen c rest

/-- Reads the items of a configuration's array. Nothing may stand behind the last field. -/
def readItems : List Field → Bool → Config → List Char → Except JsonFault (Config × List Char)
  | [], _, c, text =>
      match skipBlank text with
      | [] => .error .endOfText
      | ']' :: rest => .ok (c, rest)
      | _ => .error .malformed
  | field :: later, first, c, text =>
      match skipBlank text with
      | [] => .error .endOfText
      | ']' :: rest => .ok (c, rest)
      | text => do
          let (c, rest) ← c.readField (← nextItem ']' first text) field
          readItems later false c rest

def read (text : List Char) : Except JsonFault (Config × List Char) :=
  match skipBlank text with
  | '\x7b' :: rest => readMembers (fuelFor rest) true [] default rest
  | '[' :: rest => readItems Field.all true default rest
  | other => .error (mismatchOf other)

/-- The configuration that a text holds. It need not be valid. -/
def parse (text : String) : Except JsonFault Config := readDocument read text

/-- Loads a configuration from a file and checks it. -/
def load (t : FileTree) (path : Path) : Except ScriptError Config :=
  match t.readText path with
  | .error e => .error (.io e)
  | .ok text =>
      match parse text with
      | .error fault => .error (.serialization fault)
      | .ok c => c.validated

end Config

end SqlScript
