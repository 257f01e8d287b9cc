import SqlScript.Json
import SqlScript.Json.Numeral
import SqlScript.Json.Quoted

/-!
# Reading JSON

A text is read from left to right, and the first fault met is the answer. Two ways lead through a
value: it is read, and then its numbers have to be in range, its strings have to be text and it may
be nested up to a bound; or it is skipped, and then only its form counts.

Readers take the text that is left and return what is left after them. Those that call themselves
are given fuel, of which each call takes one; `fuelFor` is always enough.
-/

namespace SqlScript.Json

def isBlank (c : Char) : Bool := c == ' ' || c == '\n' || c == '\t' || c == '\r'

def skipBlank (text : List Char) : List Char := text.dropWhile isBlank

/-- Containers may be nested one level less than this. -/
def depthLimit : Nat := 128

/-- Each character takes at most two calls, one for an item and one for the value in it. -/
def fuelFor (text : List Char) : Nat := 2 * text.length + 2

def readWord : List Char → List Char → Except JsonFault (List Char)
  | [], text => .ok text
  | _ :: _, [] => .error .endOfText
  | letter :: word, c :: rest => if c = letter then readWord word rest else .error .malformed

/-- Goes behind the comma before an item; the first item has none. A comma before the end of the
container is a fault. -/
def nextItem (closing : Char) (first : Bool) (text : List Char) :
    Except JsonFault (List Char) :=
  if first then .ok text
  else match text with
    | ',' :: rest =>
        match skipBlank rest with
        | [] => .error .endOfText
        | c :: rest => if c = closing then .error .malformed else .ok (c :: rest)
    | _ => .error .malformed

/-- Goes behind the opening quote of a key. -/
def openKey : List Char → Except JsonFault (List Char)
  | '\x22' :: rest => .ok rest
  | _ => .error .malformed

/-- Goes behind the colon between key and value. -/
def afterColon (text : List Char) : Except JsonFault (List Char) :=
  match skipBlank text with
  | [] => .error .endOfText
  | ':' :: rest => .ok rest
  | _ => .error .malformed

mutual

/-- Reads a value with the given number of levels left for containers. -/
def readValue : Nat → Nat → List Char → Except JsonFault (Json × List Char)
  | 0, _, _ => .error .endOfText
  | fuel + 1, depth, text =>
      match skipBlank text with
      | [] => .error .endOfText
      | c :: rest =>
          if c = 'n' then do
            let rest ← readWord ['u', 'l', 'l'] rest
            return (.null, rest)
          else if c = 't' then do
            let rest ← readWord ['r', 'u', 'e'] rest
            return (.bool true, rest)
          else if c = 'f' then do
            let rest ← readWord ['a', 'l', 's', 'e'] rest
            return (.bool false, rest)
          else if c = '-' ∨ c.isDigit then do
            let (numeral, rest) ← readNumber (c :: rest)
            return (.number numeral.text, rest)
          else if c = '\x22' then do
            let (value, rest) ← readQuoted rest
            return (.string value, rest)
          else if c = '[' then do
            if depth ≤ 1 then throw .malformed
            let (items, rest) ← readItems fuel (depth - 1) true rest
            return (.array items, rest)
          else if c = '\x7b' then do
            if depth ≤ 1 then throw .malformed
            let (members, rest) ← readMembers fuel (depth - 1) true rest
            return (.object members, rest)
          else .error .malformed

def readItems : Nat → Nat → Bool → List Char → Except JsonFault (List Json × List Char)
  | 0, _, _, _ => .error .endOfText
  | fuel + 1, depth, first, text =>
      match skipBlank text with
      | [] => .error .endOfText
      | ']' :: rest => .ok ([], rest)
      | text => do
          let text ← nextItem ']' first text
          let (item, rest) ← readValue fuel depth text
          let (items, rest) ← readItems fuel depth false rest
          return (item :: items, rest)

def readMembers : Nat → Nat → Bool → List Char →
    Except JsonFault (List (String × Json) × List Char)
  | 0, _, _, _ => .error .endOfText
  | fuel + 1, depth, first, text =>
      match skipBlank text with
      | [] => .error .endOfText
      | '\x7d' :: rest => .ok ([], rest)
      | text => do
          let text ← nextItem '\x7d' first text
          let (key, rest) ← readQuoted (← openKey text)
          let (value, rest) ← readValue fuel depth (← afterColon rest)
          let (members, rest) ← readMembers fuel depth false rest
          return ((key, value) :: members, rest)

end

mutual

/-- Skips a value, however deeply it is nested. -/
def skipValue : Nat → List Char → Except JsonFault (List Char)
  | 0, _ => .error .endOfText
  | fuel + 1, text =>
      match skipBlank text with
      | [] => .error .endOfText
      | c :: rest =>
          if c = 'n' then readWord ['u', 'l', 'l'] rest
          else if c = 't' then readWord ['r', 'u', 'e'] rest
          else if c = 'f' then readWord ['a', 'l', 's', 'e'] rest
          else if c = '-' ∨ c.isDigit then do
            let (_, rest) ← readNumeral .malformed (c :: rest)
            return rest
          else if c = '\x22' then skipQuoted rest
          else if c = '[' then skipItems fuel true rest
          else if c = '\x7b' then skipMembers fuel true rest
          else .error .malformed

def skipItems : Nat → Bool → List Char → Except JsonFault (List Char)
  | 0, _, _ => .error .endOfText
  | fuel + 1, first, text =>
      match skipBlank text with
      | [] => .error .endOfText
      | ']' :: rest => .ok rest
      | text => do
          let rest ← skipValue fuel (← nextItem ']' first text)
          skipItems fuel false rest

def skipMembers : Nat → Bool → List Char → Except JsonFault (List Char)
  | 0, _, _ => .error .endOfText
  | fuel + 1, first, text =>
      match skipBlank text with
      | [] => .error .endOfText
      | '\x7d' :: rest => .ok rest
      | text => do
          let rest ← skipQuoted (← openKey (← nextItem '\x7d' first text))
          let rest ← skipValue fuel (← afterColon rest)
          skipMembers fuel false rest

end

/--
The fault of a value of the wrong kind. A scalar is read first, and a fault in it comes before the
mismatch; a container is not looked into.
-/
def mismatchOf : List Char → JsonFault
  | [] => .endOfText
  | c :: rest =>
      let read : Except JsonFault Unit :=
        if c = 'n' then (readWord ['u', 'l', 'l'] rest).map fun _ => ()
        else if c = 't' then (readWord ['r', 'u', 'e'] rest).map fun _ => ()
        else if c = 'f' then (readWord ['a', 'l', 's', 'e'] rest).map fun _ => ()
        else if c = '-' ∨ c.isDigit then (readNumber (c :: rest)).map fun _ => ()
        else if c = '\x22' then (readQuoted rest).map fun _ => ()
        else if c = '[' ∨ c = '\x7b' then .ok ()
        else .error .malformed
      match read with
      | .error fault => fault
      | .ok () => .mismatch

def readString (text : List Char) : Except JsonFault (String × List Char) :=
  match skipBlank text with
  | '\x22' :: rest => readQuoted rest
  | other => .error (mismatchOf other)

def readBool (text : List Char) : Except JsonFault (Bool × List Char) :=
  match skipBlank text with
  | 't' :: rest => (readWord ['r', 'u', 'e'] rest).map (true, ·)
  | 'f' :: rest => (readWord ['a', 'l', 's', 'e'] rest).map (false, ·)
  | other => .error (mismatchOf other)

/-- Reads a whole number below 2 ^ 32. A minus sign is none of it, even before a zero. -/
def readWord32 (text : List Char) : Except JsonFault (UInt32 × List Char) :=
  match skipBlank text with
  | [] => .error .endOfText
  | c :: rest =>
      if c = '-' ∨ c.isDigit then do
        let (numeral, rest) ← readNumber (c :: rest)
        match numeral.natural? with
        | some n => if n < UInt32.size then return (n.toUInt32, rest) else throw .mismatch
        | none => throw .mismatch
      else .error (mismatchOf (c :: rest))

def readStringItems : Nat → Bool → List Char → Except JsonFault (List String × List Char)
  | 0, _, _ => .error .endOfText
  | fuel + 1, first, text =>
      match skipBlank text with
      | [] => .error .endOfText
      | ']' :: rest => .ok ([], rest)
      | text => do
          let (item, rest) ← readString (← nextItem ']' first text)
          let (items, rest) ← readStringItems fuel false rest
          return (item :: items, rest)

def readStrings (text : List Char) : Except JsonFault (List String × List Char) :=
  match skipBlank text with
  | '[' :: rest => readStringItems (fuelFor rest) true rest
  | other => .error (mismatchOf other)

/-- Reads a text that holds one value and blanks. -/
def readDocument (read : List Char → Except JsonFault (α × List Char)) (text : String) :
    Except JsonFault α := do
  let (value, rest) ← read text.toList
  if (skipBlank rest).isEmpty then return value else throw .malformed

def parse (text : String) : Except JsonFault Json :=
  readDocument (fun chars => readValue (fuelFor chars) depthLimit chars) text

end SqlScript.Json
