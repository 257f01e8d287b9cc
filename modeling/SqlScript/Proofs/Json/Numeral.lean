import Mathlib.Algebra.Group.Nat.Defs
import SqlScript.Json.Numeral
import SqlScript.Proofs.Text.Digits

/-!
# Reading printed numbers back

The decimal digits of a number are a numeral, which ends where nothing goes on with it. The number
is read from them if it is exact as a double (`readNumber_toString`).
-/

namespace SqlScript

theorem Text.eq_nil_of_toDigits_eq {n : Nat} {digits : List Char}
    (h : Nat.toDigits 10 n = '0' :: digits) : digits = [] := by
  induction n using Nat.strongRecOn generalizing digits with
  | ind n ih =>
      by_cases hn : n < 10
      · rw [Nat.toDigits_of_lt_base hn, List.cons.injEq] at h
        exact h.2.symm
      rw [Nat.toDigits_of_base_le (by decide) (by omega)] at h
      cases hfront : Nat.toDigits 10 (n / 10) with
      | nil => exact absurd hfront Nat.toDigits_ne_nil
      | cons c front =>
          rw [hfront, List.cons_append, List.cons.injEq] at h
          obtain ⟨rfl, -⟩ := h
          -- Nothing goes on behind a leading zero, and so there is a zero only.
          have hzero := digitsValue_toDigits (n / 10)
          rw [hfront, ih (n / 10) (by omega) hfront] at hzero
          change 0 = n / 10 at hzero
          omega

namespace Json

/-- A text that does not go on with the numeral before it. -/
def EndsNumeral (rest : List Char) : Prop :=
  ∀ c ∈ rest.head?, c.isDigit = false ∧ c ≠ '.' ∧ c ≠ 'e' ∧ c ≠ 'E'

/-- The numeral of a natural number. -/
def Numeral.ofNat (n : Nat) : Numeral := ⟨false, Nat.toDigits 10 n, [], []⟩

variable {n : Nat} {rest : List Char} {cut : JsonFault}

theorem Numeral.natural?_ofNat (n : Nat) : (ofNat n).natural? = some n := by
  simp [natural?, ofNat, Text.digitsValue_toDigits]

theorem EndsNumeral.takeWhile (h : EndsNumeral rest) : rest.takeWhile Char.isDigit = [] := by
  cases rest with
  | nil => rfl
  | cons c rest => simp [(h c rfl).1]

theorem EndsNumeral.dropWhile (h : EndsNumeral rest) : rest.dropWhile Char.isDigit = rest := by
  cases rest with
  | nil => rfl
  | cons c rest => simp [(h c rfl).1]

theorem readExponent_of_endsNumeral (h : EndsNumeral rest) :
    readExponent cut rest = .ok ([], rest) := by
  cases rest with
  | nil => rfl
  | cons c rest =>
      obtain ⟨-, -, he, hE⟩ := h c rfl
      exact if_pos ⟨he, hE⟩

theorem readFraction_of_endsNumeral (h : EndsNumeral rest) :
    readFraction cut rest = .ok ([], rest) := by
  unfold readFraction
  split
  · exact absurd rfl (h '.' rfl).2.1
  · rfl

theorem readWhole_toDigits (h : EndsNumeral rest) :
    readWhole cut (Nat.toDigits 10 n ++ rest) = .ok (Nat.toDigits 10 n, rest) := by
  have hdigits : ∀ c ∈ Nat.toDigits 10 n, c.isDigit = true := fun c hc =>
    Nat.isDigit_of_mem_toDigits (by decide) (by decide) hc
  cases hcs : Nat.toDigits 10 n with
  | nil => exact absurd hcs Nat.toDigits_ne_nil
  | cons c digits =>
      rw [hcs] at hdigits
      obtain ⟨hc, hdigits⟩ := List.forall_mem_cons.1 hdigits
      rw [List.cons_append, readWhole, if_neg (not_not_intro hc)]
      by_cases hzero : c = '0'
      · subst hzero
        obtain rfl := Text.eq_nil_of_toDigits_eq hcs
        have hhead : ¬ rest.head?.any Char.isDigit = true := by
          cases hrest : rest.head? with
          | none => simp
          | some c => simp [(h c hrest).1]
        rw [if_pos rfl, List.nil_append, if_neg hhead]
      · rw [if_neg hzero, List.takeWhile_append_of_pos hdigits, List.dropWhile_append_of_pos hdigits,
          h.takeWhile, h.dropWhile, List.append_nil]

theorem readNumeral_toDigits (h : EndsNumeral rest) :
    readNumeral cut (Nat.toDigits 10 n ++ rest) = .ok (.ofNat n, rest) := by
  have hwhole : readWhole cut (Nat.toDigits 10 n ++ rest) = .ok (Nat.toDigits 10 n, rest) :=
    readWhole_toDigits h
  unfold readNumeral Numeral.ofNat
  split
  next negative text hsign =>
  split at hsign
  · next later heq =>
    rw [heq] at hwhole
    cases hwhole
  · cases hsign
    simp only [hwhole, readFraction_of_endsNumeral h, readExponent_of_endsNumeral h, bind,
      Except.bind, pure, Except.pure]

/-! ## The range of doubles -/

theorem le_digitsFrom (value : Nat) (digits : List Char) :
    value ≤ Text.digitsFrom value digits := by
  induction digits generalizing value with
  | nil => exact Nat.le_refl value
  | cons c digits ih =>
      have hnext := ih (10 * value + Text.digit c)
      rw [Text.digitsFrom_cons]
      omega

theorem absorb_of_lt {digits : List Char} {value : Nat}
    (h : Text.digitsFrom value digits < UInt64.size) :
    Numeral.absorb value digits = (Text.digitsFrom value digits, []) := by
  induction digits generalizing value with
  | nil => rfl
  | cons c digits ih =>
      rw [Text.digitsFrom_cons] at h ⊢
      have hnext := Nat.lt_of_le_of_lt (le_digitsFrom (10 * value + Text.digit c) digits) h
      simp only [Numeral.absorb, if_pos hnext, ih h]

theorem nearestDouble_of_lt (h : n < 2 ^ 53) : Numeral.nearestDouble n = n := by
  have hlog : n.log2 + 1 - 53 = 0 := by
    by_cases hzero : n = 0
    · rw [hzero]
      rfl
    · have := (Nat.log2_lt hzero).2 h
      omega
  simp [Numeral.nearestDouble, hlog, Nat.mod_one]

theorem overflows_ofNat (h : n < 2 ^ 53) : (Numeral.ofNat n).overflows = false := by
  have hvalue : Text.digitsFrom 0 (Nat.toDigits 10 n) = n := Text.digitsValue_toDigits n
  have hsize : Text.digitsFrom 0 (Nat.toDigits 10 n) < UInt64.size := by
    rw [hvalue]
    exact Nat.lt_of_lt_of_le h (by decide)
  have hscaled : (Numeral.ofNat n).scaled = (n, 0) := by
    simp [Numeral.scaled, Numeral.ofNat, absorb_of_lt hsize, hvalue, Numeral.absorb,
      Numeral.exponentValue]
  have hlimit : n < Numeral.doubleLimit := Nat.lt_of_lt_of_le h (by decide +kernel)
  simp [Numeral.overflows, hscaled, nearestDouble_of_lt h, nearestDouble_of_lt (n := 1), hlimit]

/-- A number is read from its digits. -/
theorem readNumber_toString (hn : n < 2 ^ 53) (h : EndsNumeral rest) :
    readNumber ((toString n).toList ++ rest) = .ok (.ofNat n, rest) := by
  rw [readNumber, Text.toList_toString, readNumeral_toDigits h]
  simp [overflows_ofNat hn, bind, Except.bind, pure, Except.pure]

end Json

end SqlScript
