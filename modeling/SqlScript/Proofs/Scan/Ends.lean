import SqlScript.Proofs.Scan.Grammar
import SqlScript.Proofs.Scan.Unit

/-!
# How statements end

No statement has a blank at an end, so that a second scan of it can take nothing but semicolons. A
statement that a semicolon cut off ends in plain text or right behind a dash or a slash: blanks are
all that was removed behind it, and they lead out of no string.
-/

namespace SqlScript

open Scan

namespace Scan

namespace State

/-- The contexts in which a statement that is cut off can end. -/
def isAtRest : State → Bool
  | plain | dash | slash => true
  | _ => false

theorem isUnterminated_of_isAtRest :
    ∀ {state : State}, state.isAtRest = true → state.isUnterminated = false
  | plain, _ | dash, _ | slash, _ => rfl

theorem isAtRest_outside :
    ∀ {state : State}, state.isUnterminated = false → state.outside.isAtRest = true
  | plain, _ | dash, _ | slash, _ | lineComment, _ => rfl

/-- The quote of the string that a context belongs to. -/
def quote? : State → Option Char
  | quoted quote | escaped quote => some quote
  | _ => none

theorem quote_of_stay? {state next : State} {c : Char} (h : state.stay? c = some next)
    (hquote : ∀ q ∈ state.quote?, q = '\x27' ∨ q = '\x22') :
    ∀ q ∈ next.quote?, q = '\x27' ∨ q = '\x22' := by
  cases state with
  | plain => grind [stay?, quote?]
  | dash => grind [stay?, quote?]
  | slash => grind [stay?, quote?]
  | quoted quote => grind [stay?, quote?]
  | escaped quote => grind [stay?, quote?]
  | lineComment => simp [stay?] at h
  | blockComment => simp [stay?] at h
  | blockCommentStar => simp [stay?] at h

/-- There are two quotes that a string can be opened with. -/
theorem quote_of_stayOver? {text : List Char} {next : State}
    (h : plain.stayOver? text = some next) : ∀ q ∈ next.quote?, q = '\x27' ∨ q = '\x22' := by
  induction text using List.reverseRecOn generalizing next with
  | nil =>
      cases h
      simp [quote?]
  | append_singleton before c ih =>
      rw [stayOver?_concat] at h
      obtain ⟨middle, hbefore, hc⟩ := Option.bind_eq_some_iff.1 h
      exact quote_of_stay? hc (ih hbefore)

theorem stayOver?_quoted_of_isBlank {quote : Char} (hquote : Text.isBlank quote = false)
    {blanks : List Char} (h : ∀ c ∈ blanks, Text.isBlank c = true) :
    (quoted quote).stayOver? blanks = some (quoted quote) := by
  induction blanks with
  | nil => rfl
  | cons c rest ih =>
      obtain ⟨hc, hrest⟩ := List.forall_mem_cons.1 h
      have hescape : c ≠ '\\' := by
        rintro rfl
        exact absurd hc (by decide)
      have hclose : c ≠ quote := by
        rintro rfl
        rw [hquote] at hc
        exact Bool.noConfusion hc
      simp [stayOver?, stay?, hescape, hclose, ih hrest]

/-- Blanks lead to a context at rest from a context at rest only. -/
theorem isAtRest_of_stayOver?_isBlank {state next : State} {blanks : List Char}
    (hquote : ∀ q ∈ state.quote?, q = '\x27' ∨ q = '\x22')
    (h : ∀ c ∈ blanks, Text.isBlank c = true) (hnext : state.stayOver? blanks = some next)
    (hrest : next.isAtRest = true) : state.isAtRest = true := by
  have hblank : ∀ q ∈ state.quote?, Text.isBlank q = false := by
    intro q hq
    rcases hquote q hq with rfl | rfl
    · decide
    · decide
  cases state with
  | plain => rfl
  | dash => rfl
  | slash => rfl
  | quoted quote =>
      rw [stayOver?_quoted_of_isBlank (hblank quote rfl) h] at hnext
      cases hnext
      exact hrest
  | escaped quote =>
      cases blanks with
      | nil =>
          cases hnext
          exact hrest
      | cons c later =>
          have hlater := stayOver?_quoted_of_isBlank (hblank quote rfl) (List.forall_mem_cons.1 h).2
          simp only [stayOver?, stay?, Option.bind_some, hlater] at hnext
          cases hnext
          exact hrest
  | lineComment | blockComment | blockCommentStar =>
      cases blanks with
      | nil =>
          cases hnext
          exact hrest
      | cons c later => simp [stayOver?, stay?] at hnext

theorem sign_of_stay? {state next : State} {c : Char} (h : state.stay? c = some next)
    (hnext : next = dash ∨ next = slash) : c = '-' ∨ c = '/' := by
  cases state with
  | plain => grind [stay?]
  | dash => grind [stay?]
  | slash => grind [stay?]
  | quoted quote => grind [stay?]
  | escaped quote => grind [stay?]
  | lineComment => simp [stay?] at h
  | blockComment => simp [stay?] at h
  | blockCommentStar => simp [stay?] at h

/-- Behind a dash or a slash that may open a comment, that sign is the last character. -/
theorem exists_sign_of_stayOver? {text : List Char} {next : State}
    (h : plain.stayOver? text = some next) (hnext : next = dash ∨ next = slash) :
    ∃ before sign, (sign = '-' ∨ sign = '/') ∧ text = before ++ [sign] := by
  obtain rfl | ⟨before, c, rfl⟩ := text.eq_nil_or_concat
  · cases h
    simp at hnext
  · rw [List.concat_eq_append, stayOver?_concat] at h
    obtain ⟨middle, _, hc⟩ := Option.bind_eq_some_iff.1 h
    exact ⟨before, c, sign_of_stay? hc hnext, List.concat_eq_append⟩

/-- At rest, a semicolon that did not cut was literal: it stands behind a dash or a slash. -/
theorem eq_sign_of_stay?_semicolon {state next : State} (h : state.stay? ';' = some next)
    (hquote : ∀ q ∈ state.quote?, q = '\x27' ∨ q = '\x22') (hrest : next.isAtRest = true) :
    state = dash ∨ state = slash := by
  cases state with
  | plain => simp [stay?] at h
  | dash => exact .inl rfl
  | slash => exact .inr rfl
  | quoted quote =>
      have hcut : ';' ≠ quote := by
        rintro rfl
        exact absurd (hquote ';' rfl) (by decide)
      simp only [stay?, hcut, if_false, show ';' ≠ '\\' by decide, Option.some.injEq] at h
      rw [← h] at hrest
      exact Bool.noConfusion hrest
  | escaped quote =>
      cases h
      exact Bool.noConfusion hrest
  | lineComment => simp [stay?] at h
  | blockComment => simp [stay?] at h
  | blockCommentStar => simp [stay?] at h

theorem exists_sign_of_getLast?_semicolon {text : List Char} {state : State}
    (h : plain.stayOver? text = some state) (hrest : state.isAtRest = true)
    (hlast : text.getLast? = some ';') :
    ∃ before sign, (sign = '-' ∨ sign = '/') ∧ text = before ++ [sign, ';'] := by
  obtain ⟨before, rfl⟩ := List.getLast?_eq_some_iff.1 hlast
  rw [stayOver?_concat] at h
  obtain ⟨middle, hbefore, hc⟩ := Option.bind_eq_some_iff.1 h
  have hmiddle := eq_sign_of_stay?_semicolon hc (quote_of_stayOver? hbefore) hrest
  obtain ⟨earlier, sign, hsign, rfl⟩ := exists_sign_of_stayOver? hbefore hmiddle
  exact ⟨earlier, sign, hsign, List.append_assoc ..⟩

/-- At rest, a trimmed text ends in one semicolon at most, and does not consist of it. -/
theorem eq_trimTrailing_of_isAtRest {text : List Char} {state : State}
    (h : plain.stayOver? text = some state) (hrest : state.isAtRest = true)
    (htrim : Text.IsTrimmed text) :
    text = Text.trimTrailing text ∨
      Text.trimTrailing text ≠ [] ∧ text = Text.trimTrailing text ++ [';'] := by
  by_cases hlast : text.getLast? = some ';'
  · obtain ⟨before, sign, hsign, rfl⟩ := exists_sign_of_getLast?_semicolon h hrest hlast
    have hkept : Text.isTrailing sign = false := by
      rcases hsign with rfl | rfl
      · decide
      · decide
    have hbare : Text.trimTrailing (before ++ [sign, ';']) = before ++ [sign] := by
      rw [Text.trimTrailing, Text.dropEndWhile_append_cons hkept]
      simp [Text.dropEndWhile, Text.isTrailing]
    rw [hbare]
    exact .inr ⟨by simp, by simp⟩
  · exact .inl ((Text.trimTrailing_eq_self_iff htrim).2 hlast).symm

/-- A text that leads to a context at rest leads to one when it is trimmed. -/
theorem exists_stayOver?_trim {text : List Char} {next : State}
    (h : plain.stayOver? text = some next) (hrest : next.isAtRest = true) :
    ∃ state, plain.stayOver? (Text.trim text) = some state ∧ state.isAtRest = true := by
  obtain ⟨blanks, hblanks, hall⟩ :=
    Text.exists_dropEndWhile_append Text.isBlank (Text.trimStart text)
  rw [← stayOver?_trimStart, ← hblanks, stayOver?_append] at h
  obtain ⟨state, htrim, hnext⟩ := Option.bind_eq_some_iff.1 h
  exact ⟨state, htrim, isAtRest_of_stayOver?_isBlank (quote_of_stayOver? htrim) hall hnext hrest⟩

end State

theorem isTrimmed_of_mem_trimPieces {pieces : List (List Char)} {text : List Char}
    (h : text ∈ trimPieces pieces) : Text.IsTrimmed text := by
  induction pieces with
  | nil => simp [trimPieces] at h
  | cons piece later ih =>
      by_cases hlast : later = []
      · rw [hlast, trimPieces, List.mem_singleton] at h
        rw [h]
        exact Text.isTrimmed_trimTrailing_trim piece
      · rw [trimPieces_cons piece hlast, List.mem_cons] at h
        rcases h with rfl | h
        · exact Text.isTrimmed_trim piece
        · exact ih h

end Scan

variable {script : String} {s : Statement}

theorem isTrimmed_of_mem_split (h : s ∈ split script) : Text.IsTrimmed s.text.toList := by
  have htext : s.text ∈ (split script).map Statement.text := List.mem_map_of_mem h
  rw [map_text_split, textsOf] at htext
  obtain ⟨text, hmem, hs⟩ := List.mem_map.1 htext
  rw [← hs, String.toList_ofList]
  exact isTrimmed_of_mem_trimPieces (List.mem_of_mem_filter hmem)

theorem Text.bare_eq_self_iff {text : String} (h : Text.IsTrimmed text.toList) :
    Text.bare text = text ↔ text.toList.getLast? ≠ some ';' := by
  rw [← Text.trimTrailing_eq_self_iff h, ← Text.toList_bare, String.toList_inj]

/-- All statements but the last were cut off by a semicolon. -/
theorem text_mem_cut_of_mem_dropLast (h : s ∈ (split script).dropLast) :
    s.text ∈ (scan script).cut := by
  have htext : s.text ∈ ((split script).map Statement.text).dropLast := by
    rw [← List.map_dropLast]
    exact List.mem_map_of_mem h
  rw [split, Scanner.finish, Statement.map_text_number, Scanner.close_cut] at htext
  by_cases hrest : (scan script).restText.isEmpty
  · have hcut := List.dropLast_subset _ htext
    simpa [hrest] using hcut
  · rw [List.filter_singleton] at htext
    simpa [hrest] using htext

/-- A statement that a semicolon cut off ends at rest. -/
theorem exists_stayOver?_of_mem_cut {text : String} (h : text ∈ (scan script).cut) :
    ∃ state, State.plain.stayOver? text.toList = some state ∧ state.isAtRest = true := by
  obtain hstart | ⟨part, hplain, _, htext⟩ := Scanner.exists_part_of_mem_cut script.toList h
  · simp [Scanner.start] at hstart
  · have hleads := (Scanner.echoes_feed part Scanner.echoes_start).leads
    rw [hplain] at hleads
    rw [htext]
    exact State.exists_stayOver?_trim hleads rfl

theorem exists_stayOver?_of_mem_dropLast (h : s ∈ (split script).dropLast) :
    ∃ state, State.plain.stayOver? s.text.toList = some state ∧ state.isAtRest = true :=
  exists_stayOver?_of_mem_cut (text_mem_cut_of_mem_dropLast h)

/-! ## Statements by their numbers -/

/-- At most one statement is not cut off. -/
theorem Scanner.length_texts (s : Scanner) : s.texts.length ≤ s.emitted + 1 := by
  rw [texts, close_cut, List.length_append, List.length_reverse, List.length_map]
  exact Nat.add_le_add_left (List.length_filter_le _ _) _

theorem getElem?_texts_of_mem_split (h : s ∈ split script) :
    (scan script).texts[s.ordinal]? = some s.text := by
  rw [split, Scanner.finish_eq_number_texts] at h
  obtain ⟨n, hn⟩ := List.getElem?_of_mem h
  rw [Statement.getElem?_number] at hn
  obtain ⟨text, htext, rfl⟩ := Option.map_eq_some_iff.1 hn
  exact htext

/-- The statements that a semicolon cut off are the first ones. -/
theorem text_mem_cut_of_ordinal_lt (h : s ∈ split script)
    (hlt : s.ordinal < (scan script).emitted) : s.text ∈ (scan script).cut := by
  have htext := getElem?_texts_of_mem_split h
  rw [Scanner.emitted, ← List.length_reverse] at hlt
  rw [Scanner.texts, Scanner.close_cut, List.getElem?_append_left hlt] at htext
  exact List.mem_reverse.1 (List.mem_of_getElem? htext)

/-- A statement that no semicolon cut off is the last one. -/
theorem getLast?_of_emitted_le_ordinal (h : s ∈ split script)
    (hle : (scan script).emitted ≤ s.ordinal) : (split script).getLast? = some s := by
  have htext := getElem?_texts_of_mem_split h
  have hlength := (List.getElem?_eq_some_iff.1 htext).1
  have hmost := (scan script).length_texts
  have hlast : (split script).length - 1 = s.ordinal := by
    rw [split, Scanner.finish_eq_number_texts, Statement.length_number]
    omega
  rw [List.getLast?_eq_getElem?, hlast, split, Scanner.finish_eq_number_texts,
    Statement.getElem?_number, htext]
  rfl

/--
Read on its own, a statement is one statement again and loses semicolons and blanks at its end at
most. Only the last statement, where no semicolon cut it off, can end in a string.
-/
theorem indivisible_of_mem_split (h : s ∈ split script) :
    (scan s.text).emitted = 0 ∧
      (scan s.text).finish = [⟨0, Text.bare s.text⟩] ∧
      (s.ordinal < (scan script).emitted → (scan s.text).state.isUnterminated = false) ∧
      ((scan script).emitted ≤ s.ordinal → (split script).getLast? = some s) := by
  have hunit := isUnit_of_mem_split h
  obtain ⟨state, hstate⟩ := Option.isSome_iff_exists.1 hunit.stays
  refine ⟨?_, split_of_isUnit hunit, fun hlt => ?_, getLast?_of_emitted_le_ordinal h⟩
  · rw [scan_of_stayOver? hstate]
    rfl
  · obtain ⟨_, hrest, hatRest⟩ := exists_stayOver?_of_mem_cut (text_mem_cut_of_ordinal_lt h hlt)
    rw [scan_of_stayOver? hrest]
    exact State.isUnterminated_of_isAtRest hatRest

/-- The sign of a comment in a string and a literal semicolon leave a statement in one piece. -/
theorem indivisible_of_mem_split_of_strings :
    let script := "SELECT \x27/*;\x27 -;; SELECT \x22a; b"
    let first : Statement := ⟨0, "SELECT \x27/*;\x27 -;"⟩
    let last : Statement := ⟨1, "SELECT \x22a; b"⟩
    (first ∈ split script ∧ last ∈ split script) ∧
      ((scan first.text).emitted = 0 ∧
        (scan first.text).finish = [⟨0, Text.bare first.text⟩] ∧
        first.ordinal < (scan script).emitted ∧ (scan first.text).state.isUnterminated = false) ∧
      (scan last.text).emitted = 0 ∧ (scan last.text).finish = [⟨0, Text.bare last.text⟩] ∧
      (scan script).emitted ≤ last.ordinal ∧ (split script).getLast? = some last := by
  intro script first last
  have hfirst : first ∈ split script := by decide +kernel
  have hlast : last ∈ split script := by decide +kernel
  have hemitted : (scan script).emitted = 1 := by decide +kernel
  have hlt : first.ordinal < (scan script).emitted := by rw [hemitted]; exact Nat.one_pos
  have hle : (scan script).emitted ≤ last.ordinal := Nat.le_of_eq hemitted
  obtain ⟨hnone, hfinish, hterminated, _⟩ := indivisible_of_mem_split hfirst
  obtain ⟨hnoneLast, hfinishLast, _, hends⟩ := indivisible_of_mem_split hlast
  exact ⟨⟨hfirst, hlast⟩, ⟨hnone, hfinish, hlt, hterminated hlt⟩, hnoneLast, hfinishLast, hle,
    hends hle⟩

end SqlScript
