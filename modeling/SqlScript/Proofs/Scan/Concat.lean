import SqlScript.Proofs.Scan.Ends

/-!
# Scripts behind one another

Unless a script ends in a string or a block comment, the end of a line and a semicolon end its last
statement, and what follows is scanned as a script of its own. In a string or a block comment they
end nothing: `split_append_newline_semicolon`.
-/

namespace SqlScript

open Scan

namespace Scanner

variable {s : Scanner}

/-- Outside of strings and block comments, a line and a semicolon end the pending statement. -/
theorem feed_newline_semicolon (h : s.state.isUnterminated = false) :
    s.feed ['\n', ';'] = s.close s.pendingText := by
  have hline : s.push '\n' = s.keep '\n' .plain := by
    cases hs : s.state with
    | plain | dash | slash | lineComment => simp [push, pushPlain, hs]
    | blockComment | blockCommentStar | quoted | escaped =>
        rw [hs] at h
        exact Bool.noConfusion h
  have hpending : (s.keep '\n' .plain).pendingText = s.pendingText := by
    rw [pendingText, keep, List.reverse_cons, Text.trim_concat (by decide), pendingText]
  have hcut : (s.keep '\n' .plain).push ';' = (s.keep '\n' .plain).close s.pendingText := by
    rw [← hpending]
    simp [push, keep, pushPlain]
  rw [feed_cons, hline, feed_cons, feed_nil, hcut]
  rfl

theorem Echoes.quote (h : s.Echoes) : ∀ q ∈ s.state.quote?, q = '\x27' ∨ q = '\x22' := by
  have hquote := State.quote_of_stayOver? h.leads
  cases hs : s.state <;> simp_all [State.outside, State.quote?]

/-- In strings and block comments, a line and a semicolon are read over. -/
theorem feed_newline_semicolon_of_isUnterminated (h : s.Echoes)
    (hopen : s.state.isUnterminated = true) :
    (s.feed ['\n', ';']).cut = s.cut ∧ (s.feed ['\n', ';']).state.isUnterminated = true := by
  have hquote := h.quote
  cases hs : s.state with
  | plain | dash | slash | lineComment =>
      rw [hs] at hopen
      exact Bool.noConfusion hopen
  | blockComment =>
      have hfeed : s.feed ['\n', ';'] = s := by simp [push, hs]
      rw [hfeed]
      exact ⟨rfl, hopen⟩
  | blockCommentStar =>
      have hfeed : s.feed ['\n', ';'] = { s with state := .blockComment } := by simp [push, hs]
      rw [hfeed]
      exact ⟨rfl, rfl⟩
  | quoted quote | escaped quote =>
      have hfeed : s.feed ['\n', ';'] =
          (s.keep '\n' (.quoted quote)).keep ';' (.quoted quote) := by
        rw [hs] at hquote
        rcases hquote quote rfl with rfl | rfl
        · simp [push, hs, keep]
        · simp [push, hs, keep]
      rw [hfeed]
      exact ⟨rfl, rfl⟩

/--
A pending statement that a semicolon ends is the one that the end of the script would leave, but for
a literal semicolon at its end.
-/
theorem Echoes.pendingText_eq (h : s.Echoes) (hopen : s.state.isUnterminated = false) :
    s.pendingText = s.restText ∨
      s.restText ≠ [] ∧ s.pendingText = s.restText ++ [';'] := by
  obtain ⟨state, htrim, hatRest⟩ :=
    State.exists_stayOver?_trim h.leads (State.isAtRest_outside hopen)
  rw [restText, ← Text.trimTrailing_trim]
  exact State.eq_trimTrailing_of_isAtRest htrim hatRest (Text.isTrimmed_trim _)

/-- What was cut stays in front, and nothing else is left of it behind a cut. -/
theorem texts_close (s : Scanner) (text : List Char) :
    (s.close text).texts = (s.close text).cut.reverse := by
  rw [texts_eq]
  exact List.append_nil _

end Scanner

/-- Behind a cut a script is scanned as if it stood alone. -/
theorem map_text_split_append_of_cut {before : String} (hs : (scan before).state = .plain)
    (hpending : (scan before).pending = []) (after : String) :
    (split (before ++ after)).map Statement.text =
      (split before).map Statement.text ++ (split after).map Statement.text := by
  have hnil : textsOf (pieces (tokens "".toList)) = [] := by
    rw [String.toList_empty, tokens_nil]
    rfl
  have hbefore := map_text_split_append hs ""
  rw [String.append_empty, hpending, List.reverse_nil, continueWith_nil, hnil, List.append_nil]
    at hbefore
  rw [map_text_split_append hs, hpending, List.reverse_nil, continueWith_nil, hbefore,
    map_text_split after]

section

variable {script : String}

theorem scan_append_newline_semicolon (h : (scan script).state.isUnterminated = false) :
    scan (script ++ "\n;") = (scan script).close (scan script).pendingText := by
  rw [scan_append]
  exact Scanner.feed_newline_semicolon h

/--
A semicolon behind the last statement leaves it as it is, or spares the one that is literal at its
end.
-/
theorem map_text_split_append_newline_semicolon
    (h : (scan script).state.isUnterminated = false) :
    (split (script ++ "\n;")).map Statement.text = (split script).map Statement.text ∨
      ∃ earlier last, (split script).map Statement.text = earlier ++ [last] ∧
        (split (script ++ "\n;")).map Statement.text = earlier ++ [last ++ ";"] := by
  have hcut : (split (script ++ "\n;")).map Statement.text = (scan script).cut.reverse ++
      ([(scan script).pendingText].filter (! ·.isEmpty)).map String.ofList := by
    rw [map_text_split_eq_texts, scan_append_newline_semicolon h, Scanner.texts_close,
      Scanner.close_cut]
  have hend : (split script).map Statement.text = (scan script).cut.reverse ++
      ([(scan script).restText].filter (! ·.isEmpty)).map String.ofList := by
    rw [map_text_split_eq_texts, Scanner.texts, Scanner.close_cut]
  obtain hsame | ⟨hne, hlonger⟩ := (Scanner.echoes_scan script).pendingText_eq h
  · rw [hcut, hend, hsame]
    exact .inl rfl
  · right
    refine ⟨(scan script).cut.reverse, String.ofList (scan script).restText, ?_, ?_⟩
    · rw [hend]
      simp [hne]
    · rw [hcut, hlonger]
      simp [String.ofList_append]

end

/--
Behind a script that ends in no string and no block comment, a line, a semicolon and another script
give the statements of both. Otherwise the line and the semicolon end no statement, and the script
still ends in the string or the comment.
-/
theorem split_append_newline_semicolon (before after : String) :
    ((scan before).state.isUnterminated = false →
      split (before ++ "\n;" ++ after) = Statement.number
          ((split (before ++ "\n;")).map Statement.text ++ (split after).map Statement.text) ∧
        ((split (before ++ "\n;")).map Statement.text = (split before).map Statement.text ∨
          ∃ earlier last, (split before).map Statement.text = earlier ++ [last] ∧
            (split (before ++ "\n;")).map Statement.text = earlier ++ [last ++ ";"])) ∧
    ((scan before).state.isUnterminated = true →
      (scan (before ++ "\n;")).cut = (scan before).cut ∧
        (scan (before ++ "\n;")).state.isUnterminated = true) := by
  constructor
  · intro h
    have hscan := scan_append_newline_semicolon h
    refine ⟨?_, map_text_split_append_newline_semicolon h⟩
    rw [← map_text_split_append_of_cut (by rw [hscan]; rfl) (by rw [hscan]; rfl),
      number_map_text_split]
  · intro h
    rw [scan_append]
    exact Scanner.feed_newline_semicolon_of_isUnterminated (Scanner.echoes_scan before) h

/-- A literal semicolon is spared by the one behind it, and a string runs on over both. -/
theorem split_append_newline_semicolon_of_literal :
    let before := "SELECT 1; SELECT 2 -;"
    let after := "SELECT \x27a;\x27; SELECT 3"
    let unended := "SELECT 1; SELECT \x27a -"
    (scan before).state.isUnterminated = false ∧
      (split (before ++ "\n;" ++ after) = Statement.number
          ((split (before ++ "\n;")).map Statement.text ++ (split after).map Statement.text) ∧
        ((split (before ++ "\n;")).map Statement.text = (split before).map Statement.text ∨
          ∃ earlier last, (split before).map Statement.text = earlier ++ [last] ∧
            (split (before ++ "\n;")).map Statement.text = earlier ++ [last ++ ";"])) ∧
      (scan unended).state.isUnterminated = true ∧
      (scan (unended ++ "\n;")).cut = (scan unended).cut ∧
        (scan (unended ++ "\n;")).state.isUnterminated = true := by
  intro before after unended
  have hended : (scan before).state.isUnterminated = false := by decide +kernel
  have hunended : (scan unended).state.isUnterminated = true := by decide +kernel
  exact ⟨hended, (split_append_newline_semicolon before after).1 hended, hunended,
    (split_append_newline_semicolon unended after).2 hunended⟩

end SqlScript
