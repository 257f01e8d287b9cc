/-!
# Substrings

Search for a substring and removal of its occurrences, taken from left to right and not
overlapping.
-/

namespace SqlScript.Text

/-- Whether `part` stands somewhere in the text. -/
def occursIn (part : List Char) : List Char → Bool
  | [] => part.isEmpty
  | c :: rest => part.isPrefixOf (c :: rest) || occursIn part rest

/--
Walks the text with `skip` characters of the last occurrence still to drop; `kept` is what stays,
last character first.
-/
def removeFrom (part : List Char) : Nat → List Char → List Char → List Char
  | _, kept, [] => kept.reverse
  | skip + 1, kept, _ :: rest => removeFrom part skip kept rest
  | 0, kept, c :: rest =>
      if part.isPrefixOf (c :: rest) then removeFrom part (part.length - 1) kept rest
      else removeFrom part 0 (c :: kept) rest

/-- Removes every occurrence of `part` in one pass. The empty part occurs nowhere. -/
def remove (part text : List Char) : List Char :=
  if part.isEmpty then text else removeFrom part 0 [] text

/-- Removes the parts one after another. -/
def removeAll (parts : List (List Char)) (text : List Char) : List Char :=
  parts.foldl (fun left part => remove part left) text

end SqlScript.Text
