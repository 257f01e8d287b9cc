import SqlScript.Proofs.Scan.Ends

/-!
# The shape of statements

The statements of a script are numbered from zero, and none of them is empty, has a blank at an end
or starts with a semicolon. A semicolon at the end of one is literal: it stands behind a dash or a
slash, and another semicolon cut the statement off behind it. The end of a script leaves none
(`shape_of_split`).
-/

namespace SqlScript

open Scan

variable {script : String} {s : Statement}

theorem map_ordinal_split (script : String) :
    (split script).map Statement.ordinal = List.range (split script).length := by
  rw [split, Scanner.finish, Statement.map_ordinal_number, Statement.length_number]

/-- A statement starts with a character that is neither a blank nor a semicolon. -/
theorem exists_head_of_mem_split (h : s ∈ split script) :
    ∃ c rest, s.text.toList = c :: rest ∧ Text.isTrailing c = false :=
  (isUnit_of_mem_split h).exists_cons

theorem text_ne_empty_of_mem_split (h : s ∈ split script) : s.text ≠ "" := by
  obtain ⟨c, rest, htext, _⟩ := exists_head_of_mem_split h
  intro hempty
  rw [hempty] at htext
  cases htext

theorem head?_ne_of_mem_split (h : s ∈ split script) : s.text.toList.head? ≠ some ';' := by
  obtain ⟨c, rest, htext, hc⟩ := exists_head_of_mem_split h
  rw [htext, List.head?_cons]
  intro hsemicolon
  cases hsemicolon
  exact absurd hc (by decide)

/-- A statement that no semicolon cut off has lost all semicolons at its end. -/
theorem getLast?_ne_of_emitted_le_ordinal (h : s ∈ split script)
    (hle : (scan script).emitted ≤ s.ordinal) : s.text.toList.getLast? ≠ some ';' := by
  have htext := getElem?_texts_of_mem_split h
  rw [Scanner.emitted, ← List.length_reverse] at hle
  rw [Scanner.texts, Scanner.close_cut, List.getElem?_append_right hle] at htext
  obtain ⟨rest, hrest, hs⟩ := List.mem_map.1 (List.mem_of_getElem? htext)
  have hlast : rest = Text.trimTrailing (Text.trim (scan script).pending.reverse) := by
    rw [Text.trimTrailing_trim]
    exact List.mem_singleton.1 (List.mem_of_mem_filter hrest)
  rw [← hs, String.toList_ofList, hlast]
  intro hsemicolon
  exact absurd (Text.getLast?_dropEndWhile Text.isTrailing _ ';' hsemicolon) (by decide)

theorem ordinal_lt_of_getLast? (h : s ∈ split script) (hlast : s.text.toList.getLast? = some ';') :
    s.ordinal < (scan script).emitted := by
  by_contra hge
  exact getLast?_ne_of_emitted_le_ordinal h (Nat.le_of_not_lt hge) hlast

/--
No statement is empty, has a blank at an end or starts with a semicolon. One that ends in a
semicolon ends in a sign and the semicolon, and is one of those that were cut off.
-/
theorem shape_of_split (script : String) :
    (split script).map Statement.ordinal = List.range (split script).length ∧
      ∀ s ∈ split script,
        s.text ≠ "" ∧ Text.IsTrimmed s.text.toList ∧ s.text.toList.head? ≠ some ';' ∧
          (s.text.toList.getLast? = some ';' →
            s.ordinal < (scan script).emitted ∧
              ∃ before sign,
                (sign = '-' ∨ sign = '/') ∧ s.text.toList = before ++ [sign, ';']) := by
  refine ⟨map_ordinal_split script, fun s h => ?_⟩
  refine ⟨text_ne_empty_of_mem_split h, isTrimmed_of_mem_split h, head?_ne_of_mem_split h,
    fun hlast => ?_⟩
  have hlt := ordinal_lt_of_getLast? h hlast
  obtain ⟨state, hstate, hrest⟩ := exists_stayOver?_of_mem_cut (text_mem_cut_of_ordinal_lt h hlt)
  exact ⟨hlt, State.exists_sign_of_getLast?_semicolon hstate hrest hlast⟩

/-- A literal semicolon stays at the end of the first statement and is lost at the script's end. -/
theorem shape_of_split_with_literals :
    let script := " SELECT 1 -;;\u2003; x /;"
    let first : Statement := ⟨0, "SELECT 1 -;"⟩
    split script = [first, ⟨1, "x /"⟩] ∧ first.text.toList.getLast? = some ';' ∧
      first.text ≠ "" ∧ Text.IsTrimmed first.text.toList ∧ first.text.toList.head? ≠ some ';' ∧
      first.ordinal < (scan script).emitted ∧
      ∃ before sign, (sign = '-' ∨ sign = '/') ∧ first.text.toList = before ++ [sign, ';'] := by
  intro script first
  have hsplit : split script = [first, ⟨1, "x /"⟩] := by decide +kernel
  have hlast : first.text.toList.getLast? = some ';' := by decide +kernel
  have hfirst : first ∈ split script := by
    rw [hsplit]
    exact List.mem_cons_self
  obtain ⟨hne, htrimmed, hhead, hends⟩ := (shape_of_split script).2 first hfirst
  exact ⟨hsplit, hlast, hne, htrimmed, hhead, hends hlast⟩

end SqlScript
