import Mathlib.Data.List.Induction
import SqlScript.Text.Digits

/-!
# Printed numbers

A number in decimal digits is read as that number, so that no two numbers are printed alike. The
digits that are read as a number are those that it is printed with, with any zeros before them.
-/

namespace SqlScript.Text

theorem digit_digitChar {n : Nat} (h : n < 10) : digit n.digitChar = n := by
  have hzero : '0'.toNat = 48 := rfl
  rw [digit, Nat.toNat_digitChar_of_lt_ten h, hzero]
  omega

theorem digitsValue_toDigits (n : Nat) : digitsValue (Nat.toDigits 10 n) = n := by
  induction n using Nat.strongRecOn with
  | ind n ih =>
      by_cases h : n < 10
      · rw [Nat.toDigits_of_lt_base h, digitsValue, digitsFrom_cons, digitsFrom_nil,
          digit_digitChar h]
        omega
      · have hlast : n % 10 < 10 := Nat.mod_lt n (by omega)
        rw [Nat.toDigits_of_base_le (by omega) (by omega), digitsValue_append,
          ih (n / 10) (by omega), digitsFrom_cons, digitsFrom_nil, digit_digitChar hlast]
        omega

theorem toList_toString (n : Nat) : (toString n).toList = Nat.toDigits 10 n := Nat.toList_repr

theorem toString_inj {m n : Nat} (h : toString m = toString n) : m = n := by
  rw [← digitsValue_toDigits m, ← digitsValue_toDigits n, ← toList_toString, ← toList_toString, h]

theorem isDigit_of_mem_toString {n : Nat} {c : Char} (h : c ∈ (toString n).toList) :
    c.isDigit = true := by
  rw [toList_toString] at h
  exact Nat.isDigit_of_mem_toDigits (by decide) (by decide) h

theorem digit_lt {c : Char} (h : c.isDigit = true) : digit c < 10 := by
  obtain ⟨_, hle⟩ := Char.isDigit_iff_toNat.1 h
  have hzero : '0'.toNat = 48 := rfl
  have hnine : '9'.toNat = 57 := rfl
  rw [digit]
  omega

theorem digitChar_digit {c : Char} (h : c.isDigit = true) : (digit c).digitChar = c := by
  obtain ⟨hle, _⟩ := Char.isDigit_iff_toNat.1 h
  have hzero : '0'.toNat = 48 := rfl
  apply Char.toNat_inj.1
  rw [Nat.toNat_digitChar_of_lt_ten (digit_lt h), digit, hzero]
  omega

theorem digitsValue_zeros_append (zeros : Nat) (digits : List Char) :
    digitsValue (List.replicate zeros '0' ++ digits) = digitsValue digits := by
  induction zeros with
  | zero => rfl
  | succ zeros ih => exact ih

/-- Digits are those of the number that they are read as, but for zeros before them. -/
theorem exists_zeros_append {digits : List Char} (hne : digits ≠ [])
    (h : ∀ c ∈ digits, c.isDigit = true) :
    ∃ zeros, digits = List.replicate zeros '0' ++ Nat.toDigits 10 (digitsValue digits) := by
  induction digits using List.reverseRecOn with
  | nil => exact absurd rfl hne
  | append_singleton front c ih =>
      obtain ⟨hfront, hc⟩ := List.forall_mem_append.1 h
      have hc := hc c (List.mem_singleton_self c)
      have hlast : Nat.toDigits 10 (digit c) = [c] := by
        rw [Nat.toDigits_of_lt_base (digit_lt hc), digitChar_digit hc]
      rw [digitsValue_append, digitsFrom_cons, digitsFrom_nil]
      by_cases hnil : front = []
      · refine ⟨0, ?_⟩
        rw [hnil, digitsValue, digitsFrom_nil, Nat.mul_zero, Nat.zero_add, hlast]
        rfl
      obtain ⟨zeros, hzeros⟩ := ih hnil hfront
      by_cases hvalue : digitsValue front = 0
      · refine ⟨zeros + 1, ?_⟩
        rw [hvalue] at hzeros ⊢
        rw [Nat.mul_zero, Nat.zero_add, hlast, hzeros, List.replicate_succ']
        rfl
      · refine ⟨zeros, ?_⟩
        rw [← Nat.toDigits_append_toDigits (by decide) (Nat.pos_of_ne_zero hvalue) (digit_lt hc),
          hlast, ← List.append_assoc, ← hzeros]

end SqlScript.Text
