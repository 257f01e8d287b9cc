import SqlScript.Statement
import SqlScript.Text.Blank

/-!
# Cutting at a delimiter

Division of a script at every occurrence of one character, whatever surrounds it. It suits scripts
that are known not to hold the delimiter inside a literal.
-/

namespace SqlScript

namespace Text

/-- The pieces between the occurrences of `delimiter`: one more than there are occurrences. -/
def pieces (delimiter : Char) (text : List Char) : List (List Char) :=
  text.foldr
    (fun c done =>
      if c = delimiter then [] :: done
      else match done with
        | [] => [[c]]
        | piece :: later => (c :: piece) :: later)
    [[]]

@[simp] theorem pieces_nil (delimiter : Char) : pieces delimiter [] = [[]] := rfl

theorem pieces_cons_self (delimiter : Char) (text : List Char) :
    pieces delimiter (delimiter :: text) = [] :: pieces delimiter text := by
  simp [pieces]

end Text

/-- The trimmed pieces between delimiters, blank ones dropped. -/
def splitOn (delimiter : Char) (text : String) : List Statement :=
  Statement.number
    (((Text.pieces delimiter text.toList).map Text.trim).filter (! ·.isEmpty) |>.map String.ofList)

end SqlScript
