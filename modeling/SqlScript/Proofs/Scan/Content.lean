import SqlScript.Proofs.Scan.Unit

/-!
# What a scan keeps

Blanks and semicolons apart, the statements of a script hold the characters that belong to no
comment, each once and in order: `solid_flatMap_split`. Every character that is read keeps this law
(`solid_contentBefore_push`). A sign is the only thing that is ever taken back, when the next
character shows that it opens a comment.
-/

namespace SqlScript

open Scan

namespace Text

/-- The characters of a text that are neither blanks nor semicolons. -/
def solid (text : List Char) : List Char := text.filter (! isTrailing ·)

@[simp] theorem solid_nil : solid [] = [] := rfl

@[simp] theorem solid_append (first second : List Char) :
    solid (first ++ second) = solid first ++ solid second := List.filter_append ..

theorem solid_eq_nil {text : List Char} (h : ∀ c ∈ text, isTrailing c = true) :
    solid text = [] := by
  simpa [solid, List.filter_eq_nil_iff] using h

theorem solid_dropEndWhile {p : Char → Bool} (h : ∀ c, p c → isTrailing c) (text : List Char) :
    solid (dropEndWhile p text) = solid text := by
  obtain ⟨tail, htext, htail⟩ := exists_dropEndWhile_append p text
  have hsolid := congrArg solid htext
  rwa [solid_append, solid_eq_nil fun c hc => h c (htail c hc), List.append_nil] at hsolid

theorem solid_trimStart (text : List Char) : solid (trimStart text) = solid text := by
  have hsolid := congrArg solid (@List.takeWhile_append_dropWhile _ isBlank text)
  rwa [solid_append, solid_eq_nil fun c hc => isTrailing_of_isBlank (List.mem_takeWhile_imp hc),
    List.nil_append] at hsolid

theorem solid_trim (text : List Char) : solid (trim text) = solid text := by
  rw [trim, trimEnd, solid_dropEndWhile fun _ => isTrailing_of_isBlank, solid_trimStart]

theorem solid_trimTrailing (text : List Char) : solid (trimTrailing text) = solid text :=
  solid_dropEndWhile (fun _ h => h) text

end Text

namespace Scanner

variable {s : Scanner} {c : Char}

/-! ## Comment characters -/

/-- Whether a character is the second of the two that open a comment. -/
def opens (s : Scanner) (c : Char) : Bool := ! s.state.isComment && (s.push c).state.isComment

/--
Whether a character belongs to a comment, with `rest` behind it: it is read in one, or it is one of
the two characters that open one.
-/
def readsComment (s : Scanner) (c : Char) (rest : List Char) : Bool :=
  s.state.isComment || s.opens c || rest.head?.any (s.push c).opens

/-- The characters of a text that belong to no comment, in order. -/
def uncommented : Scanner → List Char → List Char
  | _, [] => []
  | s, c :: rest =>
      if s.readsComment c rest then (s.push c).uncommented rest
      else c :: (s.push c).uncommented rest

theorem opens_iff :
    s.opens c = true ↔ s.state = .dash ∧ c = '-' ∨ s.state = .slash ∧ c = '*' := by
  unfold opens push pushPlain keep close
  cases hs : s.state <;> grind [State.isComment]

theorem any_opens_eq_false (hdash : s.state ≠ .dash) (hslash : s.state ≠ .slash)
    (next : Option Char) : next.any s.opens = false := by
  cases next with
  | none => rfl
  | some d => simp [Bool.eq_false_iff, opens_iff, hdash, hslash]

theorem opens_eq_false_of_isComment (h : s.state.isComment = true) (c : Char) :
    s.opens c = false := by
  simp [opens, h]

/-- A character that stays as it is neither is read in a comment nor opens one. -/
theorem not_opens_of_stay? {next : State} (h : s.state.stay? c = some next) :
    s.state.isComment = false ∧ s.opens c = false := by
  simp only [Bool.eq_false_iff, ne_eq, opens_iff]
  cases hs : s.state <;> grind [State.stay?, State.isComment]

/-! ## What a scan holds -/

/-- The texts that a scan has cut and the one that is pending, in script order. -/
def content (s : Scanner) : List Char := s.cut.reverse.flatMap String.toList ++ s.pending.reverse

/-- What a scan holds for good: the sign before it goes if a comment opens with `rest`. -/
def contentBefore (s : Scanner) (rest : List Char) : List Char :=
  s.cut.reverse.flatMap String.toList ++
    (if rest.head?.any s.opens then s.pending.tail else s.pending).reverse

theorem contentBefore_eq_content (hdash : s.state ≠ .dash) (hslash : s.state ≠ .slash)
    (rest : List Char) : s.contentBefore rest = s.content := by
  rw [contentBefore, any_opens_eq_false hdash hslash, if_neg Bool.false_ne_true, content]

theorem contentBefore_cons (h : s.opens c = false) (rest : List Char) :
    s.contentBefore (c :: rest) = s.content := by
  simp [contentBefore, content, h]

theorem contentBefore_keep (s : Scanner) (c : Char) (next : State) (rest : List Char) :
    (s.keep c next).contentBefore rest =
      s.content ++ if rest.head?.any (s.keep c next).opens then [] else [c] := by
  unfold contentBefore content
  split
  · simp [keep]
  · simp [keep]

theorem content_close (s : Scanner) (text : List Char) :
    (s.close text).content = s.cut.reverse.flatMap String.toList ++ text := by
  unfold close content
  by_cases h : text = []
  · simp [h]
  · simp [h]

/--
What a scan holds for good grows by the character that is read unless that belongs to a comment, is
a blank or is a semicolon.
-/
theorem solid_contentBefore_push (s : Scanner) (c : Char) (rest : List Char) :
    Text.solid ((s.push c).contentBefore rest) =
      Text.solid (s.contentBefore (c :: rest)) ++
        Text.solid (if s.readsComment c rest then [] else [c]) := by
  have hreads := s.reads_push c
  unfold readsComment
  generalize s.push c = after at hreads ⊢
  cases hreads with
  | @stays next hstay =>
      obtain ⟨hcomment, hopens⟩ := not_opens_of_stay? hstay
      rw [contentBefore_keep, contentBefore_cons hopens, hcomment, hopens]
      simp
  | cuts hs hc =>
      have hopens : s.opens c = false := by simp [Bool.eq_false_iff, opens_iff, hs]
      have hcut : Text.solid [c] = [] := by rw [hc]; rfl
      rw [contentBefore_eq_content (by simp [close]) (by simp [close]), content_close, pendingText,
        contentBefore_cons hopens, content, Text.solid_append, Text.solid_trim]
      simp [hcut, apply_ite Text.solid]
  | opens hs hnext =>
      obtain ⟨_, hdash, hslash⟩ := State.outside_of_isComment hnext
      rw [contentBefore_eq_content hdash hslash]
      simp [content, contentBefore, opens_iff.2 hs]
  | endsLine hs hc =>
      have hcomment : s.state.isComment = true := by rw [hs]; rfl
      have hline : Text.solid [c] = [] := by rw [hc]; rfl
      rw [contentBefore_keep, contentBefore_cons (opens_eq_false_of_isComment hcomment c)]
      simp [hcomment, hline, apply_ite Text.solid]
  | @skips next hs hnext =>
      have hsign : next ≠ .dash ∧ next ≠ .slash := by
        rcases hnext with rfl | hnext
        · simp
        · exact (State.outside_of_isComment hnext).2
      rw [contentBefore_eq_content hsign.1 hsign.2,
        contentBefore_cons (opens_eq_false_of_isComment hs c)]
      simp [content, hs]

theorem solid_content_feed (text : List Char) (s : Scanner) :
    Text.solid (s.feed text).content =
      Text.solid (s.contentBefore text) ++ Text.solid (s.uncommented text) := by
  induction text generalizing s with
  | nil => simp [contentBefore, content, uncommented]
  | cons c rest ih =>
      have huncommented : s.uncommented (c :: rest) =
          (if s.readsComment c rest then [] else [c]) ++ (s.push c).uncommented rest := by
        rw [uncommented]
        split <;> rfl
      rw [feed_cons, ih, solid_contentBefore_push, huncommented, Text.solid_append,
        List.append_assoc]

theorem solid_flatMap_finish (s : Scanner) :
    Text.solid (s.finish.flatMap fun t => t.text.toList) = Text.solid s.content := by
  have hclose : (s.finish.flatMap fun t => t.text.toList) = (s.close s.restText).content := by
    rw [finish, ← List.flatMap_map, Statement.map_text_number]
    simp [content, close]
  rw [hclose, content_close, restText, content, Text.solid_append, Text.solid_append,
    Text.solid_trimStart, Text.solid_trimTrailing]

end Scanner

/--
Blanks and semicolons apart, the statements of a script are the characters of the script that belong
to no comment.
-/
theorem solid_flatMap_split (text : String) :
    Text.solid ((split text).flatMap fun s => s.text.toList) =
      Text.solid (Scanner.start.uncommented text.toList) := by
  rw [split, Scanner.solid_flatMap_finish, scan, Scanner.solid_content_feed,
    Scanner.contentBefore_eq_content (by decide) (by decide)]
  rfl

/-- The end of the line belongs to a line comment, and a lone sign to none. -/
example : Scanner.start.uncommented "a - -- x\n/* ; */b".toList = "a - b".toList := by
  decide +kernel

end SqlScript
