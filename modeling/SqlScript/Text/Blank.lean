/-!
# Blank characters

The characters of the Unicode property White_Space, and trimming by them. Texts are lists of
characters here, because every consumer scans or cuts them.
-/

namespace SqlScript.Text

/-- The White_Space property: twenty-five characters. -/
def isBlank (c : Char) : Bool :=
  let n := c.toNat
  (9 ≤ n && n ≤ 13) || n == 0x20 || n == 0x85 || n == 0xA0 || n == 0x1680 ||
    (0x2000 ≤ n && n ≤ 0x200A) || n == 0x2028 || n == 0x2029 || n == 0x202F || n == 0x205F ||
    n == 0x3000

/-- Removes the longest end made of characters that satisfy `p`. -/
def dropEndWhile (p : Char → Bool) (text : List Char) : List Char :=
  (text.reverse.dropWhile p).reverse

def trimStart (text : List Char) : List Char := text.dropWhile isBlank

def trimEnd (text : List Char) : List Char := dropEndWhile isBlank text

/-- Removes blank characters on both sides. -/
def trim (text : List Char) : List Char := trimEnd (trimStart text)

/-- A blank or a semicolon: what may stand behind the last statement of a script. -/
def isTrailing (c : Char) : Bool := c == ';' || isBlank c

/-- Removes blanks and semicolons at the end. -/
def trimTrailing (text : List Char) : List Char := dropEndWhile isTrailing text

/-- Neither end is blank. -/
def IsTrimmed (text : List Char) : Prop :=
  (∀ c ∈ text.head?, isBlank c = false) ∧ (∀ c ∈ text.getLast?, isBlank c = false)

end SqlScript.Text
