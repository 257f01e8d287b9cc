import SqlScript.Error
import SqlScript.Text.Digits

/-!
# Numerals

The number literals of JSON: a sign, digits without needless zeros, a fraction and an exponent.
Reading takes the longest literal that the text starts with.
-/

namespace SqlScript.Json

structure Numeral where
  negative : Bool
  whole : List Char
  /-- The digits after the point; none without a point. -/
  fraction : List Char
  /-- The exponent mark, its sign and its digits, as written; none without an exponent. -/
  exponent : List Char
deriving DecidableEq, Repr

namespace Numeral

def text (n : Numeral) : String :=
  String.ofList ((if n.negative then ['-'] else []) ++ n.whole ++
    (if n.fraction.isEmpty then [] else '.' :: n.fraction) ++ n.exponent)

/-- The value of a numeral without fraction, exponent and sign. -/
def natural? (n : Numeral) : Option Nat :=
  if n.negative ∨ ¬ n.fraction.isEmpty ∨ ¬ n.exponent.isEmpty then none
  else some (Text.digitsValue n.whole)

def exponentValue (n : Numeral) : Int :=
  match n.exponent with
  | _ :: '-' :: digits => - (Text.digitsValue digits : Int)
  | _ :: '+' :: digits => Text.digitsValue digits
  | _ :: digits => Text.digitsValue digits
  | [] => 0

/-- Reads digits on into `n` while it stays below 2 ^ 64: the number, and the digits left out. -/
def absorb : Nat → List Char → Nat × List Char
  | n, [] => (n, [])
  | n, c :: rest =>
      let next := 10 * n + Text.digit c
      if next < UInt64.size then absorb next rest else (n, c :: rest)

/-- The leading digits that fit in 64 bits, and the power of ten to scale them by. -/
def scaled (n : Numeral) : Nat × Int :=
  let (head, dropped) := absorb 0 n.whole
  let (significand, ignored) := absorb head n.fraction
  (significand, n.exponentValue + dropped.length - (n.fraction.length - ignored.length : Nat))

/-- The nearest number of at most 53 significant bits; of two, the one with the even last bit. -/
def nearestDouble (n : Nat) : Nat :=
  let unit := 1 <<< (n.log2 + 1 - 53)
  let whole := n / unit
  let twice := 2 * (n % unit)
  if unit < twice ∨ (twice = unit ∧ whole % 2 = 1) then (whole + 1) * unit else whole * unit

/-- Products from here on round to infinity: half a unit above the greatest double. -/
def doubleLimit : Nat := 1 <<< 1024 - 1 <<< 970

/--
Whether the value is out of the range of doubles. It is computed as a product of two of them, the
leading digits and a power of ten, for which there are doubles up to 10 ^ 308.
-/
def overflows (n : Numeral) : Bool :=
  let (significand, exponent) := n.scaled
  decide (significand ≠ 0) && (decide (308 < exponent) || (decide (0 ≤ exponent) &&
    decide (doubleLimit ≤ nearestDouble significand * nearestDouble (Nat.pow 10 exponent.toNat))))

end Numeral

def readExponent (cut : JsonFault) : List Char → Except JsonFault (List Char × List Char)
  | [] => .ok ([], [])
  | mark :: rest =>
      if mark ≠ 'e' ∧ mark ≠ 'E' then .ok ([], mark :: rest)
      else
        let (sign, rest) := match rest with
          | '+' :: r => (['+'], r)
          | '-' :: r => (['-'], r)
          | r => ([], r)
        let digits := rest.takeWhile Char.isDigit
        if digits.isEmpty then .error (if rest.isEmpty then cut else .malformed)
        else .ok (mark :: (sign ++ digits), rest.dropWhile Char.isDigit)

def readFraction (cut : JsonFault) : List Char → Except JsonFault (List Char × List Char)
  | '.' :: rest =>
      let digits := rest.takeWhile Char.isDigit
      if digits.isEmpty then .error (if rest.isEmpty then cut else .malformed)
      else .ok (digits, rest.dropWhile Char.isDigit)
  | rest => .ok ([], rest)

/-- Reads the digits before the point: a zero, or digits that start with another one. -/
def readWhole (cut : JsonFault) : List Char → Except JsonFault (List Char × List Char)
  | [] => .error cut
  | c :: rest =>
      if ¬ c.isDigit then .error .malformed
      else if c = '0' then
        if rest.head?.any Char.isDigit then .error .malformed else .ok ([c], rest)
      else .ok (c :: rest.takeWhile Char.isDigit, rest.dropWhile Char.isDigit)

/-- Reads a numeral. `cut` is the fault of one that the end of the text cuts off. -/
def readNumeral (cut : JsonFault) (text : List Char) :
    Except JsonFault (Numeral × List Char) := do
  let (negative, rest) := match text with
    | '-' :: rest => (true, rest)
    | rest => (false, rest)
  let (whole, rest) ← readWhole cut rest
  let (fraction, rest) ← readFraction cut rest
  let (exponent, rest) ← readExponent cut rest
  return (⟨negative, whole, fraction, exponent⟩, rest)

/-- Reads a numeral whose value is wanted: it has to be within the range of doubles. -/
def readNumber (text : List Char) : Except JsonFault (Numeral × List Char) := do
  let (numeral, rest) ← readNumeral .endOfText text
  if numeral.overflows then throw .malformed
  return (numeral, rest)

end SqlScript.Json
