import SqlScript.Delimited
import Mathlib.Data.List.TakeWhile

/-!
# Pieces between delimiters

A text without the delimiter is one piece, a delimiter divides a text into the pieces before it and
those behind it, and no piece holds one. So texts that are joined by it are its pieces
(`pieces_intercalate`).
-/

namespace SqlScript

namespace Text

theorem exists_pieces_cons (delimiter : Char) (text : List Char) :
    ∃ piece later, pieces delimiter text = piece :: later := by
  cases text with
  | nil => exact ⟨[], [], rfl⟩
  | cons c rest =>
      simp only [pieces, List.foldr_cons]
      split
      · exact ⟨_, _, rfl⟩
      · split
        · exact ⟨_, _, rfl⟩
        · exact ⟨_, _, rfl⟩

theorem pieces_cons_of_ne {delimiter c : Char} {rest piece : List Char}
    {later : List (List Char)} (hc : c ≠ delimiter) (h : pieces delimiter rest = piece :: later) :
    pieces delimiter (c :: rest) = (c :: piece) :: later := by
  unfold pieces at h ⊢
  rw [List.foldr_cons, h, if_neg hc]

theorem pieces_of_notMem {delimiter : Char} {text : List Char} (h : delimiter ∉ text) :
    pieces delimiter text = [text] := by
  induction text with
  | nil => rfl
  | cons c rest ih =>
      have hc : c ≠ delimiter := fun he => h (by simp [he])
      exact pieces_cons_of_ne hc (ih fun hmem => h (List.mem_cons_of_mem c hmem))

theorem pieces_append (delimiter : Char) (first second : List Char) :
    pieces delimiter (first ++ delimiter :: second) =
      pieces delimiter first ++ pieces delimiter second := by
  induction first with
  | nil => rw [List.nil_append, pieces_cons_self, pieces_nil, List.singleton_append]
  | cons c rest ih =>
      by_cases hc : c = delimiter
      · rw [hc, List.cons_append, pieces_cons_self, pieces_cons_self, ih, List.cons_append]
      · obtain ⟨piece, later, hrest⟩ := exists_pieces_cons delimiter rest
        rw [hrest, List.cons_append] at ih
        rw [List.cons_append, pieces_cons_of_ne hc ih, pieces_cons_of_ne hc hrest, List.cons_append]

/-- A delimiter stands in no piece. -/
theorem notMem_of_mem_pieces {delimiter : Char} {text piece : List Char}
    (h : piece ∈ pieces delimiter text) : delimiter ∉ piece := by
  induction text generalizing piece with
  | nil => simp_all
  | cons c rest ih =>
      by_cases hc : c = delimiter
      · rw [hc, pieces_cons_self, List.mem_cons] at h
        rcases h with rfl | h
        · exact List.not_mem_nil
        · exact ih h
      · obtain ⟨first, later, hrest⟩ := exists_pieces_cons delimiter rest
        rw [pieces_cons_of_ne hc hrest, List.mem_cons] at h
        rw [hrest] at ih
        rcases h with rfl | h
        · rw [List.mem_cons, not_or]
          exact ⟨fun hsame => hc hsame.symm, ih List.mem_cons_self⟩
        · exact ih (List.mem_cons_of_mem _ h)

theorem toList_intercalate_cons_cons (delimiter : Char) (text next : String)
    (later : List String) :
    (delimiter.toString.intercalate (text :: next :: later)).toList =
      text.toList ++ delimiter :: (delimiter.toString.intercalate (next :: later)).toList := by
  simp [String.intercalate_cons_cons, Char.toString, -String.toList_intercalate]

/-- Texts without the delimiter that are joined by it are cut apart again. -/
theorem pieces_intercalate {delimiter : Char} {texts : List String} (hne : texts ≠ [])
    (h : ∀ text ∈ texts, delimiter ∉ text.toList) :
    pieces delimiter (delimiter.toString.intercalate texts).toList = texts.map String.toList := by
  induction texts with
  | nil => exact absurd rfl hne
  | cons text later ih =>
      obtain ⟨htext, hlater⟩ := List.forall_mem_cons.1 h
      cases later with
      | nil => rw [String.intercalate_singleton, pieces_of_notMem htext, List.map_singleton]
      | cons next later =>
          rw [toList_intercalate_cons_cons, pieces_append, ih (List.cons_ne_nil _ _) hlater,
            pieces_of_notMem htext, List.singleton_append, ← List.map_cons]

/-! ## The last delimiter -/

section Last

variable {α : Type} [DecidableEq α] {delimiter : α} {last : List α}

theorem takeWhile_reverse_of_notMem (h : delimiter ∉ last) :
    last.reverse.takeWhile (· ≠ delimiter) = last.reverse := by
  rw [List.takeWhile_eq_self_iff]
  intro c hmem
  rw [decide_eq_true_eq]
  rintro rfl
  exact h (List.mem_reverse.1 hmem)

theorem takeWhile_reverse_append (first : List α) (h : delimiter ∉ last) :
    (first ++ delimiter :: last).reverse.takeWhile (· ≠ delimiter) = last.reverse := by
  have hreversed : (first ++ delimiter :: last).reverse =
      last.reverse ++ delimiter :: first.reverse := by simp
  rw [hreversed, List.takeWhile_append, takeWhile_reverse_of_notMem h]
  simp

end Last

end Text

end SqlScript
