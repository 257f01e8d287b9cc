/-!
# Decimal digits

The number that a run of decimal digits stands for.
-/

namespace SqlScript.Text

/-- The digit of an ASCII digit. -/
def digit (c : Char) : Nat := c.toNat - '0'.toNat

/-- The number written by ASCII digits, reading on from `n`. -/
def digitsFrom (n : Nat) (digits : List Char) : Nat :=
  digits.foldl (fun n c => 10 * n + digit c) n

/-- The number written by ASCII digits. -/
def digitsValue (digits : List Char) : Nat := digitsFrom 0 digits

@[simp] theorem digitsFrom_nil (n : Nat) : digitsFrom n [] = n := rfl

theorem digitsFrom_cons (n : Nat) (c : Char) (digits : List Char) :
    digitsFrom n (c :: digits) = digitsFrom (10 * n + digit c) digits := by
  rw [digitsFrom, List.foldl_cons, digitsFrom]

theorem digitsValue_append (first second : List Char) :
    digitsValue (first ++ second) = digitsFrom (digitsValue first) second :=
  List.foldl_append

end SqlScript.Text
