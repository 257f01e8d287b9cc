import SqlScript.Proofs.Scan.Rejoin

/-!
# Comments and strings in a script

In plain text a comment is one token whatever stands in it, and so is a string. A comment keeps
nothing but the end of its line, so that a script has the same statements with it and without it
(`split_append_comment`). A string is kept as it is, and what the rest of a script comes to does not
depend on what stands in it (`split_append_literal`).
-/

namespace SqlScript

open Scan

namespace Scan

/-! ## Where a token ends -/

theorem throughLine_append_newline {body : List Char} (h : '\n' ∉ body) (rest : List Char) :
    throughLine (body ++ '\n' :: rest) = (body ++ ['\n'], rest) := by
  induction body with
  | nil => simp [throughLine]
  | cons c later ih =>
      obtain ⟨hc, hlater⟩ := List.ne_and_not_mem_of_not_mem_cons h
      simp [throughLine, hc.symm, ih hlater]

theorem throughStarSlash_append_close {body : List Char} (h : ¬ ['*', '/'] <:+: body)
    (rest : List Char) :
    throughStarSlash (body ++ '*' :: '/' :: rest) = (body ++ ['*', '/'], rest) := by
  induction body with
  | nil => simp [throughStarSlash]
  | cons c later ih =>
      have hclose := ih fun hinfix => h (List.infix_cons hinfix)
      cases later with
      | nil =>
          -- A star at the end of the body is followed by the star that closes the comment.
          simp [throughStarSlash]
      | cons d later =>
          have hopen : ¬ (c = '*' ∧ d = '/') := by
            rintro ⟨rfl, rfl⟩
            exact h ⟨[], later, rfl⟩
          rw [List.cons_append] at hclose
          simp [throughStarSlash, hopen, hclose]

/--
What may stand between the quotes of a string: characters other than the quote and the backslash,
and backslashes with the character behind them, whatever it is.
-/
inductive IsLiteralBody (quote : Char) : List Char → Prop
  | nil : IsLiteralBody quote []
  | plain {c : Char} {rest : List Char} (hquote : c ≠ quote) (hescape : c ≠ '\\')
      (hrest : IsLiteralBody quote rest) : IsLiteralBody quote (c :: rest)
  | escaped {c : Char} {rest : List Char} (hrest : IsLiteralBody quote rest) :
      IsLiteralBody quote ('\\' :: c :: rest)

theorem throughQuote_append_quote {quote : Char} {body : List Char} (hquote : quote ≠ '\\')
    (h : IsLiteralBody quote body) (rest : List Char) :
    throughQuote quote (body ++ quote :: rest) = (body ++ [quote], rest) := by
  induction h with
  | nil => cases rest <;> simp [throughQuote, hquote]
  | @plain c later hc hescape hlater ih =>
      obtain ⟨d, text, htext⟩ : ∃ d text, later ++ quote :: rest = d :: text := by
        cases later <;> simp
      rw [htext] at ih
      simp [throughQuote, htext, hc, hescape, ih]
  | escaped hlater ih => simp [throughQuote, ih]

/-! ## What a token keeps -/

theorem pieces_tokens_blockComment {body : List Char} (h : ¬ ['*', '/'] <:+: body)
    (rest : List Char) :
    pieces (tokens ('/' :: '*' :: (body ++ '*' :: '/' :: rest))) = pieces (tokens rest) := by
  have hread : Token.read '/' ('*' :: (body ++ '*' :: '/' :: rest)) =
      (.blockComment (body ++ ['*', '/']), rest) := by
    simp [Token.read, throughStarSlash_append_close h]
  rw [tokens_cons, hread, pieces_cons_of_ne_cut (by simp)]
  exact continueWith_nil _

theorem pieces_tokens_lineComment {body : List Char} (h : '\n' ∉ body) (rest : List Char) :
    pieces (tokens ('-' :: '-' :: (body ++ '\n' :: rest))) = pieces (tokens ('\n' :: rest)) := by
  have hread : Token.read '-' ('-' :: (body ++ '\n' :: rest)) =
      (.lineComment (body ++ ['\n']), rest) := by
    simp [Token.read, throughLine_append_newline h]
  have hline : Token.read '\n' rest = (.plain '\n', rest) := by simp [Token.read]
  have hkept : (Token.lineComment (body ++ ['\n'])).kept = (Token.plain '\n').kept := by
    simpa [Token.kept, Token.text, List.filter_eq_nil_iff] using
      fun c hc => ne_of_mem_of_not_mem hc h
  rw [tokens_cons, hread, tokens_cons, hline, pieces_cons_of_ne_cut (by simp),
    pieces_cons_of_ne_cut (by simp), hkept]

/-- A string with its quotes. -/
def literal (quote : Char) (body : List Char) : List Char := quote :: (body ++ [quote])

theorem pieces_tokens_literal {quote : Char} {body : List Char}
    (hquote : quote = '\x27' ∨ quote = '\x22') (h : IsLiteralBody quote body) (rest : List Char) :
    pieces (tokens (literal quote body ++ rest)) =
      continueWith (literal quote body) (pieces (tokens rest)) := by
  have hread : Token.read quote (body ++ quote :: rest) =
      (.string quote (body ++ [quote]), rest) := by
    have hthrough (hne : quote ≠ '\\') := throughQuote_append_quote hne h rest
    rcases hquote with rfl | rfl
    · simp [Token.read, hthrough]
    · simp [Token.read, hthrough]
  simp only [literal, List.cons_append, List.append_assoc, List.nil_append]
  rw [tokens_cons, hread, pieces_cons_of_ne_cut (by simp)]
  rfl

end Scan

/-! ## Comments -/

/-- Behind plain text only the pieces of what follows matter. -/
theorem split_append_congr {before first second : String} (h : (scan before).state = .plain)
    (hpieces : pieces (tokens first.toList) = pieces (tokens second.toList)) :
    split (before ++ first) = split (before ++ second) := by
  rw [split_eq_split_iff, map_text_split_append h, map_text_split_append h, hpieces]

/--
A block comment in plain text is the same as nothing, and a line comment is the same as the end of
its line.
-/
theorem split_append_comment {before : String} (h : (scan before).state = .plain)
    (after : String) :
    (∀ body : String, ¬ ['*', '/'] <:+: body.toList →
      split (before ++ "/*" ++ body ++ "*/" ++ after) = split (before ++ after)) ∧
    (∀ body : String, '\n' ∉ body.toList →
      split (before ++ "--" ++ body ++ "\n" ++ after) = split (before ++ "\n" ++ after)) := by
  constructor
  · intro body hbody
    have hpieces := pieces_tokens_blockComment hbody after.toList
    simp only [String.append_assoc]
    refine split_append_congr h ?_
    simpa using hpieces
  · intro body hbody
    have hpieces := pieces_tokens_lineComment hbody after.toList
    simp only [String.append_assoc]
    refine split_append_congr h ?_
    simpa using hpieces

/-- Semicolons, quotes and the signs of other comments change nothing in a comment. -/
theorem split_append_comment_with_semicolon :
    let before := "SELECT 1"
    let after := "; SELECT 2"
    let block := "; \x27 -- /* **"
    let line := "; \x22 /* - \\"
    (scan before).state = .plain ∧ ¬ ['*', '/'] <:+: block.toList ∧ '\n' ∉ line.toList ∧
      split (before ++ "/*" ++ block ++ "*/" ++ after) = split (before ++ after) ∧
      split (before ++ "--" ++ line ++ "\n" ++ after) = split (before ++ "\n" ++ after) := by
  intro before after block line
  have hplain : (scan before).state = .plain := by decide +kernel
  have hblock : ¬ ['*', '/'] <:+: block.toList := by decide +kernel
  have hline : '\n' ∉ line.toList := by decide +kernel
  obtain ⟨hblocks, hlines⟩ := split_append_comment hplain after
  exact ⟨hplain, hblock, hline, hblocks block hblock, hlines line hline⟩

/-! ## Strings -/

namespace Scan

variable {quote : Char}

theorem dropEndWhile_append_literal {p : Char → Bool} (h : p quote = false)
    (before body rest : List Char) :
    Text.dropEndWhile p (before ++ literal quote body ++ rest) =
      before ++ literal quote body ++ Text.dropEndWhile p rest := by
  have hend := Text.dropEndWhile_append_cons h (before ++ quote :: body) rest
  simpa [literal] using hend

theorem trim_append_literal (h : Text.isBlank quote = false) (before body rest : List Char) :
    Text.trim (before ++ literal quote body ++ rest) =
      Text.trimStart before ++ literal quote body ++ Text.trimEnd rest := by
  have hstart : Text.trimStart (before ++ literal quote body ++ rest) =
      Text.trimStart before ++ literal quote body ++ rest := by
    simpa [literal] using Text.trimStart_append_cons h before (body ++ quote :: rest)
  rw [Text.trim, hstart, Text.trimEnd, dropEndWhile_append_literal h, Text.trimEnd]

/-- What stands around a string in its piece is trimmed without regard to the string. -/
theorem exists_textsOf_literal (h : Text.isTrailing quote = false) (before : List Char)
    {pieces : List (List Char)} (hne : pieces ≠ []) :
    ∃ lead trail texts, ∀ body,
      textsOf (continueWith before (continueWith (literal quote body) pieces)) =
        String.ofList (lead ++ literal quote body ++ trail) :: texts := by
  have hblank := Text.isBlank_of_isTrailing_eq_false h
  obtain ⟨piece, later, rfl⟩ := List.exists_cons_of_ne_nil hne
  have hpiece (body : List Char) :
      continueWith before (continueWith (literal quote body) (piece :: later)) =
        (before ++ literal quote body ++ piece) :: later := by
    simp [continueWith]
  by_cases hlast : later = []
  · -- The last piece loses its semicolons too.
    refine ⟨Text.trimStart before, Text.trimTrailing (Text.trimEnd piece), [], fun body => ?_⟩
    rw [hpiece, hlast, textsOf, trimPieces, trim_append_literal hblank, Text.trimTrailing,
      dropEndWhile_append_literal h]
    simp [literal, Text.trimTrailing]
  · refine ⟨Text.trimStart before, Text.trimEnd piece, textsOf later, fun body => ?_⟩
    rw [hpiece, textsOf, trimPieces_cons _ hlast, trim_append_literal hblank]
    simp [literal, textsOf]

/-- The text of a string with its quotes. -/
def quoted (quote : Char) (body : String) : String := String.ofList (literal quote body.toList)

end Scan

theorem exists_map_text_split_literal {before : String} (h : (scan before).state = .plain)
    {quote : Char} (hquote : quote = '\x27' ∨ quote = '\x22') (after : String) :
    ∃ (lead trail : String) (texts : List String), ∀ body : String,
      IsLiteralBody quote body.toList →
      (split (before ++ quoted quote body ++ after)).map Statement.text =
        (scan before).cut.reverse ++ (lead ++ quoted quote body ++ trail) :: texts := by
  have htrailing : Text.isTrailing quote = false := by
    rcases hquote with rfl | rfl <;> decide
  obtain ⟨lead, trail, texts, htexts⟩ := exists_textsOf_literal htrailing
    (scan before).pending.reverse (pieces_ne_nil (tokens after.toList))
  refine ⟨String.ofList lead, String.ofList trail, texts, fun body hbody => ?_⟩
  rw [String.append_assoc, map_text_split_append h, String.toList_append, quoted,
    String.toList_ofList, pieces_tokens_literal hquote hbody, htexts, String.ofList_append,
    String.ofList_append]

/--
A string in plain text stands as it is in the statement that is pending there. What that statement
is made of otherwise, how many statements there are and what the others are does not depend on what
stands in the string.
-/
theorem split_append_literal {before : String} (h : (scan before).state = .plain) {quote : Char}
    (hquote : quote = '\x27' ∨ quote = '\x22') (after : String) :
    ∃ lead trail : String, ∀ body : String, IsLiteralBody quote body.toList →
      (split (before ++ quoted quote body ++ after)).length =
        (split (before ++ quoted quote "" ++ after)).length ∧
      (split (before ++ quoted quote body ++ after))[(scan before).emitted]? =
        some ⟨(scan before).emitted, lead ++ quoted quote body ++ trail⟩ ∧
      ∀ n, n ≠ (scan before).emitted →
        (split (before ++ quoted quote body ++ after))[n]? =
          (split (before ++ quoted quote "" ++ after))[n]? := by
  obtain ⟨lead, trail, texts, htexts⟩ := exists_map_text_split_literal h hquote after
  have hsplit (body : String) (hbody : IsLiteralBody quote body.toList) :
      split (before ++ quoted quote body ++ after) = Statement.number
        ((scan before).cut.reverse ++ (lead ++ quoted quote body ++ trail) :: texts) := by
    rw [← htexts body hbody, number_map_text_split]
  have hemitted : (scan before).cut.reverse.length = (scan before).emitted := List.length_reverse
  refine ⟨lead, trail, fun body hbody => ?_⟩
  rw [hsplit body hbody, hsplit "" .nil, ← hemitted]
  refine ⟨by simp [Statement.number], ?_, fun n hn => ?_⟩
  · rw [Statement.getElem?_number]
    simp
  · have hsame (text : String) : ((scan before).cut.reverse ++ text :: texts)[n]? =
        ((scan before).cut.reverse ++ (lead ++ quoted quote "" ++ trail) :: texts)[n]? := by
      grind
    rw [Statement.getElem?_number, Statement.getElem?_number, hsame]

/-- Neither a semicolon nor the sign of a comment or an escaped quote ends a string. -/
theorem split_append_literal_with_semicolon :
    let before := "SELECT 1; INSERT INTO t VALUES ("
    let body := "--;\\\x22"
    let after := "); SELECT 2"
    (scan before).state = .plain ∧ IsLiteralBody '\x22' body.toList ∧
      ∃ lead trail : String,
        (split (before ++ quoted '\x22' body ++ after)).length =
          (split (before ++ quoted '\x22' "" ++ after)).length ∧
        (split (before ++ quoted '\x22' body ++ after))[1]? =
          some ⟨1, lead ++ quoted '\x22' body ++ trail⟩ ∧
        ∀ n, n ≠ 1 → (split (before ++ quoted '\x22' body ++ after))[n]? =
          (split (before ++ quoted '\x22' "" ++ after))[n]? := by
  intro before body after
  have hplain : (scan before).state = .plain := by decide +kernel
  have hemitted : (scan before).emitted = 1 := by decide +kernel
  have hchars : body.toList = ['-', '-', ';', '\\', '\x22'] := by decide +kernel
  have hbody : IsLiteralBody '\x22' body.toList := by
    rw [hchars]
    exact .plain (by decide) (by decide) <| .plain (by decide) (by decide) <|
      .plain (by decide) (by decide) <| .escaped .nil
  obtain ⟨lead, trail, hbodies⟩ := split_append_literal hplain (.inr rfl) after
  rw [hemitted] at hbodies
  exact ⟨hplain, hbody, lead, trail, hbodies body hbody⟩

end SqlScript
