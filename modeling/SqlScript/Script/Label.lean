import SqlScript.Script
import SqlScript.Text.Decoding

/-!
# Labels from file names

The name of a file is made of bytes, which need not be text. A script's label is that name up to its
last dot, decoded as far as it is text.
-/

namespace SqlScript.Script

/-- What stands before the last dot of a name. A dot that leads the name does not count. -/
def stemAt {α : Type} [DecidableEq α] (dot : α) (name : List α) : List α :=
  let extension := name.reverse.takeWhile (· ≠ dot)
  match name.reverse.drop extension.length with
  | _ :: c :: stem => (c :: stem).reverse
  | _ => name

/-- A name that a file may have. -/
structure IsFileName (name : List UInt8) : Prop where
  ne_nil : name ≠ []
  ne_dot : name ≠ [0x2E]
  ne_dotDot : name ≠ [0x2E, 0x2E]
  slash : 0x2F ∉ name
  nul : 0x00 ∉ name
  size : name.length ≤ FileTree.nameLimit

/-- The label of the script in a file of this name. -/
def labelOfName (name : List UInt8) : String := String.ofList (Text.decode (stemAt 0x2E name))

end SqlScript.Script
