import SqlScript.Proofs.Text.Trim
import SqlScript.Scan
import SqlScript.Scan.Token

/-!
# The scan and its grammar

A scan that reads one character at a time, with what it may have to take back held in its context,
does what a reader of whole tokens does: `split_eq_statements_tokens`. The step of the argument is
one token (`feed_text_read`); the run is a sequence of them (`texts_feed`).
-/

namespace SqlScript

open Scan

namespace Scanner

variable {s after : Scanner} {c : Char} {kept rest : List Char}

/-- The texts of the statements if the script ends here, in script order. -/
def texts (s : Scanner) : List String := (s.close s.restText).cut.reverse

theorem finish_eq_number_texts (s : Scanner) : s.finish = Statement.number s.texts := rfl

/--
What a scan did between `s` and `after`, with `rest` still to be read: it added `kept` to the
pending statement, and it is back in plain text unless the script ends here.
-/
structure Adds (s : Scanner) (kept rest : List Char) (after : Scanner) : Prop where
  cut : after.cut = s.cut
  pending : after.pending = kept.reverse ++ s.pending
  state : rest ≠ [] → after.state = .plain

theorem Adds.of_keep {state : State} (h : Adds (s.keep c state) kept rest after) :
    Adds s (c :: kept) rest after :=
  ⟨h.cut, by simp [h.pending, keep], h.state⟩

theorem adds_keep_plain (s : Scanner) (c : Char) (rest : List Char) :
    Adds s [c] rest (s.keep c .plain) := ⟨rfl, rfl, fun _ => rfl⟩

/-! ## Comments and strings -/

/-- Of a line comment only the end of the line is added. -/
theorem adds_feed_throughLine (text : List Char) (hs : s.state = .lineComment) :
    Adds s ((throughLine text).1.filter (· = '\n')) (throughLine text).2
      (s.feed (throughLine text).1) := by
  induction text with
  | nil => exact ⟨rfl, rfl, fun h => absurd rfl h⟩
  | cons c rest ih =>
      by_cases hc : c = '\n'
      · subst hc
        have hpush : s.push '\n' = s.keep '\n' .plain := by simp [push, hs]
        simpa [throughLine, hpush] using adds_keep_plain s '\n' rest
      · have hpush : s.push c = s := by simp [push, hs, hc]
        simpa [throughLine, hc, hpush] using ih

theorem exists_throughStarSlash_cons (c : Char) (rest : List Char) :
    ∃ body, (throughStarSlash (c :: rest)).1 = c :: body := by
  cases rest with
  | nil => exact ⟨[], rfl⟩
  | cons d rest =>
      unfold throughStarSlash
      split
      · exact ⟨_, rfl⟩
      · exact ⟨_, rfl⟩

/-- Only a slash tells whether the last character in a block comment was a star. -/
theorem feed_blockCommentStar (hs : s.state = .blockComment) (hc : c ≠ '/') (body : List Char) :
    Scanner.feed { s with state := .blockCommentStar } (c :: body) = s.feed (c :: body) := by
  have hpush : Scanner.push { s with state := .blockCommentStar } c = s.push c := by
    cases s
    simp_all [push]
  rw [feed_cons, hpush, feed_cons]

theorem adds_feed_throughStarSlash (text : List Char) (hs : s.state = .blockComment) :
    Adds s [] (throughStarSlash text).2 (s.feed (throughStarSlash text).1) := by
  fun_induction throughStarSlash text with
  | case1 => exact ⟨rfl, rfl, fun h => absurd rfl h⟩
  | case2 c =>
      refine ⟨?_, ?_, fun h => absurd rfl h⟩
      · by_cases hc : c = '*' <;> simp [push, hs, hc]
      · by_cases hc : c = '*' <;> simp [push, hs, hc]
  | case3 c d rest h =>
      obtain ⟨rfl, rfl⟩ := h
      have hfeed : s.feed ['*', '/'] = { s with state := .plain } := by simp [push, hs]
      rw [hfeed]
      exact ⟨rfl, rfl, fun _ => rfl⟩
  | case4 c d rest h ih =>
      -- Behind a star that no slash follows the comment goes on as if there had been none.
      have hsame : (s.push c).feed (throughStarSlash (d :: rest)).1 =
          s.feed (throughStarSlash (d :: rest)).1 := by
        by_cases hc : c = '*'
        · obtain ⟨body, hbody⟩ := exists_throughStarSlash_cons d rest
          have hd : d ≠ '/' := fun hd => h ⟨hc, hd⟩
          have hpush : s.push c = { s with state := .blockCommentStar } := by simp [push, hs, hc]
          rw [hbody, hpush, feed_blockCommentStar hs hd]
        · have hpush : s.push c = s := by simp [push, hs, hc]
          rw [hpush]
      rw [feed_cons, hsame]
      exact ih

theorem adds_feed_throughQuote (quote : Char) (text : List Char) (hs : s.state = .quoted quote) :
    Adds s (throughQuote quote text).1 (throughQuote quote text).2
      (s.feed (throughQuote quote text).1) := by
  fun_induction throughQuote quote text generalizing s with
  | case1 => exact ⟨rfl, rfl, fun h => absurd rfl h⟩
  | case2 c =>
      have hkeep : ∃ state, s.push c = s.keep c state := by
        simp only [push, hs]
        split
        · exact ⟨_, rfl⟩
        · split
          · exact ⟨_, rfl⟩
          · exact ⟨_, rfl⟩
      obtain ⟨state, hpush⟩ := hkeep
      rw [feed_cons, hpush]
      exact ⟨rfl, rfl, fun h => absurd rfl h⟩
  | case3 d rest ih =>
      have hfirst : s.push '\\' = s.keep '\\' (.escaped quote) := by simp [push, hs]
      have hsecond (t : Scanner) (ht : t.state = .escaped quote) :
          t.push d = t.keep d (.quoted quote) := by simp [push, ht]
      rw [feed_cons, feed_cons, hfirst, hsecond _ rfl]
      exact .of_keep (.of_keep (ih rfl))
  | case4 d rest hb =>
      have hpush : s.push quote = s.keep quote .plain := by simp [push, hs, hb]
      rw [feed_cons, hpush]
      exact adds_keep_plain s quote _
  | case5 c d rest hb hq ih =>
      have hpush : s.push c = s.keep c (.quoted quote) := by simp [push, hs, hb, hq]
      rw [feed_cons, hpush]
      exact .of_keep (ih rfl)

/-! ## One token -/

/--
A sign is kept with the character behind it, unless they open a comment. `opens` is the context in
which that is not yet known.
-/
theorem adds_feed_sign (opens : State) (hsign : s.push c = s.keep c opens)
    (hnext : ∀ (t : Scanner), ∀ d ∈ rest.head?, t.state = opens → t.push d = t.keep d .plain) :
    Adds s (c :: rest.take 1) (rest.drop 1) (s.feed (c :: rest.take 1)) := by
  rw [feed_cons, hsign]
  cases rest with
  | nil => exact ⟨rfl, rfl, fun h => absurd rfl h⟩
  | cons d later =>
      have hd := hnext (s.keep c opens) d rfl rfl
      simp only [List.take_succ_cons, List.take_zero, feed_cons, feed_nil, hd]
      exact .of_keep (adds_keep_plain _ d _)

/--
Reading a token in plain text: a cut ends the pending statement, any other token adds to it what it
keeps.
-/
theorem feed_text_read (c : Char) (rest : List Char) (hs : s.state = .plain) :
    ((Token.read c rest).1 = .cut →
      s.feed (Token.read c rest).1.text = s.close s.pendingText) ∧
    ((Token.read c rest).1 ≠ .cut →
      Adds s (Token.read c rest).1.kept (Token.read c rest).2
        (s.feed (Token.read c rest).1.text)) := by
  unfold Token.read
  split
  · -- Two dashes: the first is taken back when the second comes.
    rename_i h
    refine ⟨fun hcut => by simp at hcut, fun _ => ?_⟩
    have hpush : (s.push '-').push '-' = { s with state := .lineComment } := by
      simp [push, hs, pushPlain, keep]
    have hbody := adds_feed_throughLine (s := { s with state := .lineComment }) rest.tail rfl
    simp only [Token.text, Token.kept, feed_cons, hpush]
    exact ⟨hbody.cut, hbody.pending, hbody.state⟩
  split
  · rename_i h
    refine ⟨fun hcut => by simp at hcut, fun _ => ?_⟩
    have hpush : (s.push '/').push '*' = { s with state := .blockComment } := by
      simp [push, hs, pushPlain, keep]
    have hbody := adds_feed_throughStarSlash (s := { s with state := .blockComment }) rest.tail rfl
    simp only [Token.text, Token.kept, feed_cons, hpush]
    exact ⟨hbody.cut, hbody.pending, hbody.state⟩
  split
  · rename_i hline hblock hsign
    refine ⟨fun hcut => by simp at hcut, fun _ => ?_⟩
    rcases hsign with rfl | rfl
    · refine adds_feed_sign .dash (by simp [push, hs, pushPlain]) ?_
      intro t d hd ht
      have hdash : d ≠ '-' := fun he => hline ⟨rfl, he ▸ hd⟩
      simp [push, ht, hdash]
    · refine adds_feed_sign .slash (by simp [push, hs, pushPlain]) ?_
      intro t d hd ht
      have hstar : d ≠ '*' := fun he => hblock ⟨rfl, he ▸ hd⟩
      simp [push, ht, hstar]
  split
  · rename_i hquote
    refine ⟨fun hcut => by simp at hcut, fun _ => ?_⟩
    have hpush : s.push c = s.keep c (.quoted c) := by
      rcases hquote with rfl | rfl <;> simp [push, hs, pushPlain]
    simp only [Token.text, Token.kept, feed_cons, hpush]
    exact .of_keep (adds_feed_throughQuote c rest rfl)
  split
  · rename_i hcut
    subst hcut
    refine ⟨fun _ => by simp [Token.text, push, hs, pushPlain], fun h => absurd rfl h⟩
  · rename_i hline hblock hsign hquote hcut
    refine ⟨fun h => by simp at h, fun _ => ?_⟩
    have hpush : s.push c = s.keep c .plain := by
      simp [push, hs, pushPlain, hcut, not_or.1 hsign, hquote]
    simp only [Token.text, Token.kept, feed_cons, hpush]
    exact adds_keep_plain s c rest

end Scanner

/-! ## All tokens -/

namespace Scan

theorem pieces_cut (later : List Token) : pieces (.cut :: later) = [] :: pieces later := rfl

theorem pieces_ne_nil (tokens : List Token) : pieces tokens ≠ [] := by
  fun_cases pieces tokens with
  | case1 => simp
  | case2 => simp
  | case3 => simp
  | case4 => simp

theorem pieces_of_ne_cut {token : Token} {tokens : List Token} {piece : List Char}
    {later : List (List Char)} (hcut : token ≠ .cut) (h : pieces tokens = piece :: later) :
    pieces (token :: tokens) = (token.kept ++ piece) :: later := by
  cases token <;> simp_all [pieces]

theorem trimPieces_cons {later : List (List Char)} (piece : List Char) (h : later ≠ []) :
    trimPieces (piece :: later) = Text.trim piece :: trimPieces later := by
  cases later with
  | nil => exact absurd rfl h
  | cons next later => rfl

/-- The texts of some pieces, blank ones left out. -/
def textsOf (pieces : List (List Char)) : List String :=
  ((trimPieces pieces).filter (! ·.isEmpty)).map String.ofList

/-- The pieces with `pending` in front of the first. -/
def continueWith (pending : List Char) : List (List Char) → List (List Char)
  | [] => []
  | piece :: later => (pending ++ piece) :: later

@[simp] theorem continueWith_nil (pieces : List (List Char)) : continueWith [] pieces = pieces := by
  cases pieces <;> rfl

theorem continueWith_append (first second : List Char) (pieces : List (List Char)) :
    continueWith (first ++ second) pieces = continueWith first (continueWith second pieces) := by
  cases pieces with
  | nil => rfl
  | cons piece later => simp [continueWith]

theorem pieces_cons_of_ne_cut {token : Token} (hcut : token ≠ .cut) (later : List Token) :
    pieces (token :: later) = continueWith token.kept (pieces later) := by
  obtain ⟨piece, rest, hpieces⟩ := List.exists_cons_of_ne_nil (pieces_ne_nil later)
  rw [pieces_of_ne_cut hcut hpieces, hpieces, continueWith]

end Scan

namespace Scanner

theorem close_cut (s : Scanner) (text : List Char) :
    (s.close text).cut.reverse =
      s.cut.reverse ++ ([text].filter (! ·.isEmpty)).map String.ofList := by
  unfold close
  by_cases h : text.isEmpty
  · simp [h]
  · simp [h]

theorem texts_eq (s : Scanner) : s.texts = s.cut.reverse ++ textsOf [s.pending.reverse] := by
  rw [texts, close_cut, textsOf, trimPieces, Text.trimTrailing_trim, restText]

/--
A scan that is in plain text ends with what it has cut and the pieces of what it still reads, of
which the first continues the pending statement. Where nothing is left its context does not matter.
-/
theorem texts_feed (text : List Char) (s : Scanner) (hs : text ≠ [] → s.state = .plain) :
    (s.feed text).texts =
      s.cut.reverse ++ textsOf (continueWith s.pending.reverse (pieces (tokens text))) := by
  induction text using tokens.induct generalizing s with
  | case1 =>
      rw [feed_nil, texts_eq, tokens_nil]
      simp [pieces, continueWith]
  | case2 c rest ih =>
      have hplain : s.state = .plain := hs (by simp)
      obtain ⟨hcut, hkept⟩ := feed_text_read c rest hplain
      have hsplit : s.feed (c :: rest) =
          (s.feed (Token.read c rest).1.text).feed (Token.read c rest).2 := by
        rw [← feed_append, Token.text_read]
      rw [hsplit, tokens_cons]
      by_cases h : (Token.read c rest).1 = .cut
      · -- The pending statement ends here, and the next piece starts from nothing.
        rw [hcut h, ih _ (fun _ => rfl), h, pieces_cut, close_cut]
        have hpending : (s.close s.pendingText).pending = [] := rfl
        rw [hpending, List.reverse_nil, continueWith_nil]
        simp only [continueWith, textsOf, trimPieces_cons _ (pieces_ne_nil _), pendingText,
          List.append_nil, List.append_assoc]
        rw [← List.map_append, ← List.filter_append, List.singleton_append]
      · have hadds := hkept h
        rw [ih _ hadds.state, hadds.cut, hadds.pending, pieces_cons_of_ne_cut h,
          List.reverse_append, List.reverse_reverse, continueWith_append]

end Scanner

theorem map_text_split_eq_texts (script : String) :
    (split script).map Statement.text = (scan script).texts := by
  rw [split, Scanner.finish_eq_number_texts, Statement.map_text_number]

/--
What follows a text that leads to plain text: the pieces of its tokens, the first of which goes on
with the statement that is pending.
-/
theorem map_text_split_append {before : String} (h : (scan before).state = .plain)
    (text : String) :
    (split (before ++ text)).map Statement.text =
      (scan before).cut.reverse ++
        textsOf (continueWith (scan before).pending.reverse (pieces (tokens text.toList))) := by
  rw [map_text_split_eq_texts, scan_append]
  exact Scanner.texts_feed text.toList (scan before) fun _ => h

/-- The texts of the statements are what the pieces between the cuts keep. -/
theorem map_text_split (text : String) :
    (split text).map Statement.text = textsOf (pieces (tokens text.toList)) := by
  have h := @map_text_split_append "" rfl text
  simpa [scan, Scanner.start] using h

/-- The scan implements the grammar of its tokens. -/
theorem split_eq_statements_tokens (text : String) :
    split text = Scan.statements (Scan.tokens text.toList) := by
  have h := map_text_split text
  rw [split, Scanner.finish_eq_number_texts, Statement.map_text_number] at h
  rw [split, Scanner.finish_eq_number_texts, h]
  rfl

theorem number_map_text_split (script : String) :
    Statement.number ((split script).map Statement.text) = split script := by
  rw [split, Scanner.finish, Statement.map_text_number]

/-- The statements of two scripts are the same as soon as their texts are: both are numbered. -/
theorem split_eq_split_iff {first second : String} :
    split first = split second ↔
      (split first).map Statement.text = (split second).map Statement.text := by
  constructor
  · intro h
    rw [h]
  · intro h
    rw [← number_map_text_split first, h, number_map_text_split]

end SqlScript
