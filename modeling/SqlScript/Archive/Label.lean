import SqlScript.Timestamp

/-!
# Names of archive directories

An archive directory is named after a label and a moment, with a number behind them where the name
is taken.
-/

namespace SqlScript.Archive

/-- A character that a label may carry into a directory name. -/
def isLabelChar (c : Char) : Bool := c.isAlphanum || c == '-' || c == '_' || c == '.'

/-- The label as a part of a directory name: other characters become low lines. -/
def cleanLabel (label : String) : String :=
  if label.isEmpty then "script"
  else String.ofList (label.toList.map fun c => if isLabelChar c then c else '_')

/-- The name before any number is added. -/
def baseName (label : String) (moment : Timestamp) : String :=
  cleanLabel label ++ "_" ++ moment.text

/-- The name that is tried after this many taken ones. -/
def numberedName (base : String) (suffix : Nat) : String :=
  if suffix = 0 then base else base ++ "-" ++ toString suffix

end SqlScript.Archive
