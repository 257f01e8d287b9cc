import SqlScript.Statement

/-!
# Exclusion by leading text

Statements that start with one of some given texts are left out. The test is on the text as it
stands and distinguishes case.
-/

namespace SqlScript

/-- What is left out unless the configuration says otherwise. -/
def defaultExclusions : List String := ["DROP", "LOCK", "UNLOCK"]

/-- Whether the text starts with one of `leads`. -/
def isExcluded (leads : List String) (text : String) : Bool :=
  leads.any fun lead => lead.toList.isPrefixOf text.toList

/-- The statements that are not excluded, with the ordinals they had. -/
def keepAllowed (leads : List String) (statements : List Statement) : List Statement :=
  statements.filter fun statement => ! isExcluded leads statement.text

/-- The kept statements and how many were removed. -/
def exclude (leads : List String) (statements : List Statement) : List Statement × Nat :=
  let kept := keepAllowed leads statements
  (kept, statements.length - kept.length)

end SqlScript
