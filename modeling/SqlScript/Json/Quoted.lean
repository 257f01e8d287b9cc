import SqlScript.Error

/-!
# Quoted strings

Reading and skipping of the strings of JSON, one character at a time. A string that is read has to
be text: its surrogates come in pairs. A string that is skipped only has to have the form of one.
-/

namespace SqlScript.Json

/-- How far into a string and its escapes the reading is. -/
inductive QuotedState where
  | body
  | escape
  /-- Among the four digits of an escaped unit, which may be the partner of a leading surrogate. -/
  | digits (lead : Option Nat) (seen value : Nat)
  /-- After a leading surrogate: a backslash has to follow. -/
  | paired (lead : Nat)
  /-- After a leading surrogate and a backslash: the letter of a unit has to follow. -/
  | pairedEscape (lead : Nat)
deriving DecidableEq, Repr

def escaped? (c : Char) : Option Char :=
  if c = '\x22' ∨ c = '\\' ∨ c = '/' then some c
  else if c = 'b' then some '\x08'
  else if c = 'f' then some '\x0c'
  else if c = 'n' then some '\n'
  else if c = 'r' then some '\r'
  else if c = 't' then some '\t'
  else none

def hexDigit? (c : Char) : Option Nat :=
  if c.isDigit then some (c.toNat - '0'.toNat)
  else if 'a' ≤ c ∧ c ≤ 'f' then some (c.toNat - 'a'.toNat + 10)
  else if 'A' ≤ c ∧ c ≤ 'F' then some (c.toNat - 'A'.toNat + 10)
  else none

def isLead (unit : Nat) : Bool := 0xD800 ≤ unit && unit ≤ 0xDBFF

def isTrail (unit : Nat) : Bool := 0xDC00 ≤ unit && unit ≤ 0xDFFF

/-- The fault of an escaped unit with a wrong digit: the text may have been too short for four. -/
def digitFault (seen : Nat) (left : List Char) : JsonFault :=
  if seen + (String.ofList left).utf8ByteSize < 4 then .endOfText else .malformed

/-- What a complete unit leads to: another state, and the character it completes. -/
def completeUnit (lead : Option Nat) (unit : Nat) : Option (QuotedState × Option Char) :=
  match lead with
  | none =>
      if isTrail unit then none
      else if isLead unit then some (.paired unit, none)
      else some (.body, some (Char.ofNat unit))
  | some first =>
      if isTrail unit then
        some (.body, some (Char.ofNat ((first - 0xD800) * 0x400 + (unit - 0xDC00) + 0x10000)))
      else none

/-- Reads on in a string up to its closing quote. `kept` is what was read, latest first. -/
def readQuotedFrom : QuotedState → List Char → List Char →
    Except JsonFault (List Char × List Char)
  | _, _, [] => .error .endOfText
  | .body, kept, c :: rest =>
      if c = '\x22' then .ok (kept.reverse, rest)
      else if c = '\\' then readQuotedFrom .escape kept rest
      else if c.toNat < 0x20 then .error .malformed
      else readQuotedFrom .body (c :: kept) rest
  | .escape, kept, c :: rest =>
      if c = 'u' then readQuotedFrom (.digits none 0 0) kept rest
      else match escaped? c with
        | some plain => readQuotedFrom .body (plain :: kept) rest
        | none => .error .malformed
  | .digits lead seen value, kept, c :: rest =>
      match hexDigit? c with
      | none => .error (digitFault seen (c :: rest))
      | some digit =>
          let unit := 16 * value + digit
          if seen < 3 then readQuotedFrom (.digits lead (seen + 1) unit) kept rest
          else match completeUnit lead unit with
            | none => .error .malformed
            | some (next, read) => readQuotedFrom next (read.toList ++ kept) rest
  | .paired lead, kept, c :: rest =>
      if c = '\\' then readQuotedFrom (.pairedEscape lead) kept rest else .error .malformed
  | .pairedEscape lead, kept, c :: rest =>
      if c = 'u' then readQuotedFrom (.digits (some lead) 0 0) kept rest else .error .malformed

/-- Reads a string whose opening quote is behind. -/
def readQuoted (text : List Char) : Except JsonFault (String × List Char) := do
  let (read, rest) ← readQuotedFrom .body [] text
  return (String.ofList read, rest)

/-- Skips on in a string up to its closing quote. -/
def skipQuotedFrom : QuotedState → List Char → Except JsonFault (List Char)
  | _, [] => .error .endOfText
  | .escape, c :: rest =>
      if c = 'u' then skipQuotedFrom (.digits none 0 0) rest
      else if (escaped? c).isSome then skipQuotedFrom .body rest
      else .error .malformed
  | .digits _ seen _, c :: rest =>
      match hexDigit? c with
      | none => .error (digitFault seen (c :: rest))
      | some _ =>
          if seen < 3 then skipQuotedFrom (.digits none (seen + 1) 0) rest
          else skipQuotedFrom .body rest
  | _, c :: rest =>
      if c = '\x22' then .ok rest
      else if c = '\\' then skipQuotedFrom .escape rest
      else if c.toNat < 0x20 then .error .malformed
      else skipQuotedFrom .body rest

/-- Skips a string whose opening quote is behind. -/
def skipQuoted (text : List Char) : Except JsonFault (List Char) := skipQuotedFrom .body text

end SqlScript.Json
