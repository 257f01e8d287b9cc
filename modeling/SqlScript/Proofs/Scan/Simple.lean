import Mathlib.Data.List.Infix
import SqlScript.Proofs.Scan.Grammar
import SqlScript.Proofs.Text.Pieces

/-!
# Simple scripts

In a script without quotes, comments and literal semicolons every token but a cut stands for itself,
and every semicolon is a cut. So a scan divides it as if it were cut at every semicolon:
`split_eq_splitOn`.
-/

namespace SqlScript

open Scan

namespace Scan

/-- The pairs of characters that open a comment or make a semicolon literal. -/
def specialPairs : List (List Char) := [['-', '-'], ['/', '*'], ['-', ';'], ['/', ';']]

/-- A text in which no character but the semicolon means anything to a scan. -/
structure IsSimple (text : List Char) : Prop where
  quotes : '\x27' ∉ text ∧ '\x22' ∉ text
  pairs : ∀ pair ∈ specialPairs, ¬ pair <:+: text

instance (text : List Char) : Decidable (IsSimple text) :=
  decidable_of_iff (('\x27' ∉ text ∧ '\x22' ∉ text) ∧ ∀ pair ∈ specialPairs, ¬ pair <:+: text)
    ⟨fun h => ⟨h.1, h.2⟩, fun h => ⟨h.quotes, h.pairs⟩⟩

variable {text rest : List Char} {c : Char}

theorem IsSimple.of_append {first : List Char} (h : IsSimple (first ++ rest)) : IsSimple rest where
  quotes := ⟨fun hmem => h.quotes.1 (List.mem_append_right _ hmem),
    fun hmem => h.quotes.2 (List.mem_append_right _ hmem)⟩
  pairs pair hpair hpart := h.pairs pair hpair (hpart.trans (List.suffix_append _ _).isInfix)

theorem IsSimple.head?_ne (h : IsSimple (c :: rest)) {d : Char}
    (hpair : [c, d] ∈ specialPairs) : rest.head? ≠ some d := by
  intro hd
  obtain ⟨later, rfl⟩ := List.head?_eq_some_iff.1 hd
  exact h.pairs _ hpair ⟨[], later, rfl⟩

/-- A token of a simple text is a cut or stands for itself and holds no semicolon. -/
theorem IsSimple.read (h : IsSimple (c :: rest)) :
    c = ';' ∧ Token.read c rest = (.cut, rest) ∨
      (Token.read c rest).1 ≠ .cut ∧ (Token.read c rest).1.kept = (Token.read c rest).1.text ∧
        ';' ∉ (Token.read c rest).1.text := by
  have hline : ¬ (c = '-' ∧ rest.head? = some '-') := by
    rintro ⟨rfl, hd⟩
    exact h.head?_ne (by decide) hd
  have hblock : ¬ (c = '/' ∧ rest.head? = some '*') := by
    rintro ⟨rfl, hd⟩
    exact h.head?_ne (by decide) hd
  have hquote : ¬ (c = '\x27' ∨ c = '\x22') := by
    rintro (rfl | rfl)
    · exact h.quotes.1 List.mem_cons_self
    · exact h.quotes.2 List.mem_cons_self
  rw [Token.read, if_neg hline, if_neg hblock]
  by_cases hsign : c = '-' ∨ c = '/'
  · have hnext : rest.head? ≠ some ';' := by
      rcases hsign with rfl | rfl
      · exact h.head?_ne (by decide)
      · exact h.head?_ne (by decide)
    rw [if_pos hsign]
    refine .inr ⟨by simp, rfl, ?_⟩
    have hc : ';' ≠ c := by rcases hsign with rfl | rfl <;> decide
    cases rest <;> simp_all [Token.text, eq_comm]
  rw [if_neg hsign, if_neg hquote]
  by_cases hcut : c = ';'
  · exact .inl ⟨hcut, if_pos hcut⟩
  · rw [if_neg hcut]
    exact .inr ⟨by simp, rfl, by simp [Token.text, eq_comm, hcut]⟩

theorem pieces_append_of_notMem {delimiter : Char} {first : List Char} (h : delimiter ∉ first)
    (rest : List Char) :
    Text.pieces delimiter (first ++ rest) = continueWith first (Text.pieces delimiter rest) := by
  obtain ⟨piece, later, hpieces⟩ := Text.exists_pieces_cons delimiter rest
  rw [hpieces, continueWith]
  induction first with
  | nil => exact hpieces
  | cons c first ih =>
      obtain ⟨hc, hfirst⟩ := List.ne_and_not_mem_of_not_mem_cons h
      exact Text.pieces_cons_of_ne hc.symm (ih hfirst)

/-- In a simple text the pieces between the cuts are the pieces between the semicolons. -/
theorem pieces_tokens_of_isSimple (h : IsSimple text) :
    pieces (tokens text) = Text.pieces ';' text := by
  induction text using tokens.induct with
  | case1 =>
      rw [tokens_nil]
      rfl
  | case2 c rest ih =>
      have htext := Token.text_read c rest
      have hlater : IsSimple (Token.read c rest).2 := by
        rw [← htext] at h
        exact h.of_append
      rw [tokens_cons]
      obtain ⟨rfl, hread⟩ | ⟨hcut, hkept, hnone⟩ := h.read
      · rw [hread] at ih hlater ⊢
        rw [pieces_cut, ih hlater, Text.pieces_cons_self]
      · rw [pieces_cons_of_ne_cut hcut, ih hlater, hkept, ← htext, pieces_append_of_notMem hnone]

/-- Pieces without semicolons are all trimmed alike: the last one has none to lose. -/
theorem trimPieces_eq_map {pieces : List (List Char)} (h : ∀ piece ∈ pieces, ';' ∉ piece) :
    trimPieces pieces = pieces.map Text.trim := by
  induction pieces with
  | nil => rfl
  | cons piece later ih =>
      obtain ⟨hpiece, hlater⟩ := List.forall_mem_cons.1 h
      by_cases hlast : later = []
      · have hend : (Text.trim piece).getLast? ≠ some ';' :=
          fun hend => hpiece (Text.trim_subset piece (List.mem_of_getLast? hend))
        rw [hlast, trimPieces, (Text.trimTrailing_eq_self_iff (Text.isTrimmed_trim piece)).2 hend]
        rfl
      · rw [trimPieces_cons piece hlast, ih hlater, List.map_cons]

end Scan

/-- A scan of a simple script cuts it at its semicolons and nowhere else. -/
theorem split_eq_splitOn {script : String} (h : IsSimple script.toList) :
    split script = splitOn ';' script := by
  rw [← number_map_text_split script, map_text_split, textsOf, pieces_tokens_of_isSimple h,
    trimPieces_eq_map fun _ hpiece => Text.notMem_of_mem_pieces hpiece, splitOn]

/-- Lone signs and blank pieces change nothing. -/
theorem split_eq_splitOn_with_signs :
    let script := " SELECT 4 /2 - -1 ; ;\n/ - x ;y /"
    IsSimple script.toList ∧ split script = splitOn ';' script := by
  intro script
  have hsimple : IsSimple script.toList := by decide +kernel
  exact ⟨hsimple, split_eq_splitOn hsimple⟩

end SqlScript
