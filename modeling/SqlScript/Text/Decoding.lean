/-!
# Text from bytes

Bytes that are mostly UTF-8, as file names are, decoded without fail: each longest run of bytes that
starts a character and does not end it, and each byte that starts none, becomes one replacement
character.
-/

namespace SqlScript.Text

/-- The character that stands where bytes are no text. -/
def replacement : Char := '\uFFFD'

/-- How many bytes a character has after its first byte, if it can start so. -/
def tailSize (first : UInt8) : Nat :=
  if first < 0xC2 then 0
  else if first < 0xE0 then 1
  else if first < 0xF0 then 2
  else if first < 0xF5 then 3
  else 0

def isTail (byte : UInt8) : Bool := 0x80 ≤ byte && byte ≤ 0xBF

/-- Whether a character that starts with one byte may have the other as its second. -/
def mayFollow (first second : UInt8) : Bool :=
  isTail second &&
    if first = 0xE0 then 0xA0 ≤ second
    else if first = 0xED then second ≤ 0x9F
    else if first = 0xF0 then 0x90 ≤ second
    else if first = 0xF4 then second ≤ 0x8F
    else true

/-- How many bytes after the first one belong to the longest start of a character. -/
def tailLength (first : UInt8) (rest : List UInt8) : Nat :=
  match rest.take (tailSize first) with
  | [] => 0
  | second :: more => if mayFollow first second then 1 + (more.takeWhile isTail).length else 0

/-- Walks the bytes with `skip` bytes of the last character still to pass. -/
def decodeFrom : Nat → List UInt8 → List Char
  | _, [] => []
  | skip + 1, _ :: rest => decodeFrom skip rest
  | 0, byte :: rest =>
      match (byte :: rest).toByteArray.utf8DecodeChar? 0 with
      | some c => c :: decodeFrom (c.utf8Size - 1) rest
      | none => replacement :: decodeFrom (tailLength byte rest) rest

def decode (bytes : List UInt8) : List Char := decodeFrom 0 bytes

end SqlScript.Text
