import Mathlib.Tactic.SplitIfs
import SqlScript.Json
import SqlScript.Json.Quoted

/-!
# Reading quoted strings back

The escape of a character is read as that character, so that a string in quotes is read as itself
(`readQuoted_escaped`).
-/

namespace SqlScript.Json

theorem hexDigit?_digitChar : ∀ n < 16, hexDigit? (Nat.digitChar n) = some n := by decide

theorem completeUnit_control {n : Nat} (h : n < 0x20) :
    completeUnit none n = some (.body, some (Char.ofNat n)) := by
  have htrail : isTrail n = false := by simp [isTrail]; omega
  have hlead : isLead n = false := by simp [isLead]; omega
  simp [completeUnit, htrail, hlead]

theorem readQuotedFrom_digit {lead : Option Nat} {seen value digit : Nat} (hseen : seen < 3)
    (hdigit : digit < 16) (kept rest : List Char) :
    readQuotedFrom (.digits lead seen value) kept (Nat.digitChar digit :: rest) =
      readQuotedFrom (.digits lead (seen + 1) (16 * value + digit)) kept rest := by
  simp only [readQuotedFrom, hexDigit?_digitChar digit hdigit, if_pos hseen]

/-- The four digits of a control character. -/
theorem readQuotedFrom_hexFour {c : Char} (h : c.toNat < 0x20) (kept rest : List Char) :
    readQuotedFrom (.digits none 0 0) kept (hexFour c.toNat ++ rest) =
      readQuotedFrom .body (c :: kept) rest := by
  have hhigh : c.toNat >>> 12 % 16 = 0 ∧ c.toNat >>> 8 % 16 = 0 := by
    simp only [Nat.shiftRight_eq_div_pow]
    omega
  have hvalue : 16 * (16 * (16 * (16 * 0 + 0) + 0) + c.toNat >>> 4 % 16) + c.toNat >>> 0 % 16 =
      c.toNat := by
    simp only [Nat.shiftRight_eq_div_pow]
    omega
  have hlast : c.toNat >>> 0 % 16 < 16 := Nat.mod_lt _ (by decide)
  simp only [hexFour, List.map_cons, List.map_nil, List.cons_append, List.nil_append, hhigh]
  rw [readQuotedFrom_digit (by decide) (by decide), readQuotedFrom_digit (by decide) (by decide),
    readQuotedFrom_digit (by decide) (Nat.mod_lt _ (by decide))]
  simp only [readQuotedFrom, hexDigit?_digitChar _ hlast, hvalue, completeUnit_control h,
    Nat.lt_irrefl, if_false, Option.toList_some, List.cons_append, List.nil_append,
    Char.ofNat_toNat]

/-- A character that a letter stands for behind a backslash. -/
theorem readQuotedFrom_letter {letter c : Char} (hletter : letter ≠ 'u')
    (hc : escaped? letter = some c) (kept rest : List Char) :
    readQuotedFrom .body kept ('\\' :: letter :: rest) = readQuotedFrom .body (c :: kept) rest := by
  have hback : ¬ '\\' = '\x22' := by decide
  simp only [readQuotedFrom, if_neg hback, if_true, if_neg hletter, hc]

/-- A character is read from its escape. -/
theorem readQuotedFrom_escape (c : Char) (kept rest : List Char) :
    readQuotedFrom .body kept (escape c ++ rest) = readQuotedFrom .body (c :: kept) rest := by
  have hletter {letter : Char} (hu : letter ≠ 'u') (hc : escaped? letter = some c) :=
    readQuotedFrom_letter hu hc kept rest
  unfold escape
  split_ifs with hquote hback hb ht hn hf hr hcontrol
  · subst hquote
    exact hletter (by decide) rfl
  · subst hback
    exact hletter (by decide) rfl
  · subst hb
    exact hletter (by decide) rfl
  · subst ht
    exact hletter (by decide) rfl
  · subst hn
    exact hletter (by decide) rfl
  · subst hf
    exact hletter (by decide) rfl
  · subst hr
    exact hletter (by decide) rfl
  · exact readQuotedFrom_hexFour hcontrol kept rest
  · simp only [List.cons_append, List.nil_append, readQuotedFrom, if_neg hquote, if_neg hback,
      if_neg hcontrol]

theorem readQuotedFrom_flatMap_escape (cs kept rest : List Char) :
    readQuotedFrom .body kept (cs.flatMap escape ++ '\x22' :: rest) =
      .ok (kept.reverse ++ cs, rest) := by
  induction cs generalizing kept with
  | nil => simp [readQuotedFrom]
  | cons c cs ih =>
      rw [List.flatMap_cons, List.append_assoc, readQuotedFrom_escape, ih, List.reverse_cons,
        List.append_assoc, List.singleton_append]

/-- What stands behind the opening quote of a string is read as the string. -/
theorem readQuoted_escaped (text : String) (rest : List Char) :
    readQuoted (text.toList.flatMap escape ++ '\x22' :: rest) = .ok (text, rest) := by
  rw [readQuoted, readQuotedFrom_flatMap_escape]
  simp [bind, Except.bind, pure, Except.pure]

end SqlScript.Json
