import SqlScript.Proofs.Text.Trim
import SqlScript.Scan

/-!
# Statements as units

What a scan cuts is one statement for every later scan: read again it holds no comment and no cut,
and only the semicolons and blanks at its end are lost (`split_of_isUnit`). The invariant is that
the pending text of a scan reads as itself (`Scanner.Echoes`).
-/

namespace SqlScript

namespace Scan.State

/-- The context behind a character that stays as it is: none for a cut and in or into a comment. -/
def stay? : State → Char → Option State
  | plain, c =>
      if c = ';' then none
      else if c = '-' then some dash
      else if c = '/' then some slash
      else if c = '\x27' ∨ c = '\x22' then some (quoted c)
      else some plain
  | dash, c => if c = '-' then none else some plain
  | slash, c => if c = '*' then none else some plain
  | quoted quote, c =>
      if c = '\\' then some (escaped quote)
      else if c = quote then some plain
      else some (quoted quote)
  | escaped quote, _ => some (quoted quote)
  | lineComment, _ | blockComment, _ | blockCommentStar, _ => none

/-- The context behind a text of which every character stays as it is. -/
def stayOver? : State → List Char → Option State
  | state, [] => some state
  | state, c :: rest => (state.stay? c).bind fun next => next.stayOver? rest

theorem stayOver?_append (state : State) (first second : List Char) :
    state.stayOver? (first ++ second) =
      (state.stayOver? first).bind fun next => next.stayOver? second := by
  induction first generalizing state with
  | nil => rfl
  | cons c rest ih =>
      simp only [List.cons_append, stayOver?, ih, Option.bind_assoc]

theorem stayOver?_concat (state : State) (text : List Char) (c : Char) :
    state.stayOver? (text ++ [c]) = (state.stayOver? text).bind fun next => next.stay? c := by
  simp [stayOver?_append, stayOver?]

theorem isSome_stayOver?_of_prefix {state : State} {text longer : List Char}
    (h : text <+: longer) (hlonger : (state.stayOver? longer).isSome) :
    (state.stayOver? text).isSome := by
  obtain ⟨rest, rfl⟩ := h
  rw [stayOver?_append] at hlonger
  exact Option.isSome_of_isSome_bind hlonger

theorem stay?_plain_of_isBlank {c : Char} (h : Text.isBlank c = true) :
    stay? plain c = some plain := by
  have hne (d : Char) (hd : Text.isBlank d = false) : c ≠ d := by
    rintro rfl
    rw [hd] at h
    exact Bool.noConfusion h
  simp [stay?, hne ';' (by decide), hne '-' (by decide), hne '/' (by decide),
    hne '\x27' (by decide), hne '\x22' (by decide)]

/-- The context with a comment counted as the plain text around it. -/
def outside : State → State
  | lineComment | blockComment | blockCommentStar => plain
  | state => state

/-- Whether a character that is read in this context belongs to a comment. -/
def isComment : State → Bool
  | lineComment | blockComment | blockCommentStar => true
  | _ => false

theorem outside_of_isComment {state : State} (h : state.isComment = true) :
    state.outside = plain ∧ state ≠ dash ∧ state ≠ slash := by
  cases state <;> simp_all [isComment, outside]

theorem outside_of_stay? {state next : State} {c : Char} (h : state.stay? c = some next) :
    state.outside = state ∧ next.outside = next ∧ (next = dash ∨ next = slash → state = plain) := by
  cases state with
  | plain => grind [stay?, outside]
  | dash => grind [stay?, outside]
  | slash => grind [stay?, outside]
  | quoted quote => grind [stay?, outside]
  | escaped quote => grind [stay?, outside]
  | lineComment => simp [stay?] at h
  | blockComment => simp [stay?] at h
  | blockCommentStar => simp [stay?] at h

theorem stayOver?_trimStart (text : List Char) :
    stayOver? plain (Text.trimStart text) = stayOver? plain text := by
  unfold Text.trimStart
  induction text with
  | nil => rfl
  | cons c rest ih =>
      by_cases hc : Text.isBlank c
      · rw [List.dropWhile_cons_of_pos hc, ih]
        simp [stayOver?, stay?_plain_of_isBlank hc]
      · rw [List.dropWhile_cons_of_neg hc]

end Scan.State

open Scan

namespace Scanner

theorem push_of_stay? {s : Scanner} {c : Char} {next : State} (h : s.state.stay? c = some next) :
    s.push c = s.keep c next := by
  cases hs : s.state with
  | plain =>
      simp only [hs, State.stay?] at h
      simp only [push, hs, pushPlain]
      grind
  | dash => grind [push, State.stay?]
  | slash => grind [push, State.stay?]
  | quoted quote => grind [push, State.stay?]
  | escaped quote => grind [push, State.stay?]
  | lineComment => simp [hs, State.stay?] at h
  | blockComment => simp [hs, State.stay?] at h
  | blockCommentStar => simp [hs, State.stay?] at h

/-- What reading a character does to a scan. -/
inductive Reads (s : Scanner) (c : Char) : Scanner → Prop
  | stays {next : State} (hstay : s.state.stay? c = some next) : Reads s c (s.keep c next)
  | cuts (hs : s.state = .plain) (hc : c = ';') : Reads s c (s.close s.pendingText)
  /-- The sign before it is taken back. -/
  | opens {next : State} (hs : s.state = .dash ∧ c = '-' ∨ s.state = .slash ∧ c = '*')
      (hnext : next.isComment = true) :
      Reads s c { s with state := next, pending := s.pending.tail }
  | endsLine (hs : s.state = .lineComment) (hc : c = '\n') : Reads s c (s.keep c .plain)
  | skips {next : State} (hs : s.state.isComment = true)
      (hnext : next = .plain ∨ next.isComment = true) : Reads s c { s with state := next }

theorem reads_push_of_isComment {s : Scanner} (h : s.state.isComment = true) (c : Char) :
    s.Reads c (s.push c) := by
  cases hs : s.state with
  | plain | dash | slash | quoted | escaped => simp [hs, State.isComment] at h
  | lineComment =>
      by_cases hc : c = '\n'
      · have hpush : s.push c = s.keep c .plain := by simp [push, hs, hc]
        rw [hpush]
        exact .endsLine hs hc
      · have hpush : s.push c = s := by simp [push, hs, hc]
        rw [hpush]
        exact @Reads.skips s c s.state h (.inr h)
  | blockComment =>
      have hpush : ∃ next : State, next.isComment = true ∧
          s.push c = { s with state := next } := by
        simp only [push, hs]
        split
        · exact ⟨_, rfl, rfl⟩
        · exact ⟨.blockComment, rfl, by rw [← hs]⟩
      obtain ⟨next, hnext, hpush⟩ := hpush
      rw [hpush]
      exact .skips h (.inr hnext)
  | blockCommentStar =>
      have hpush : ∃ next : State, (next = .plain ∨ next.isComment = true) ∧
          s.push c = { s with state := next } := by
        simp only [push, hs]
        split
        · exact ⟨.plain, .inl rfl, rfl⟩
        · split
          · exact ⟨.blockCommentStar, .inr rfl, by rw [← hs]⟩
          · exact ⟨.blockComment, .inr rfl, rfl⟩
      obtain ⟨next, hnext, hpush⟩ := hpush
      rw [hpush]
      exact .skips h hnext

theorem reads_push (s : Scanner) (c : Char) : s.Reads c (s.push c) := by
  cases hstay : s.state.stay? c with
  | some next =>
      rw [push_of_stay? hstay]
      exact .stays hstay
  | none =>
      cases hs : s.state with
      | plain =>
          have hc : c = ';' := by grind [State.stay?]
          have hpush : s.push c = s.close s.pendingText := by simp [push, hs, pushPlain, hc]
          rw [hpush]
          exact .cuts hs hc
      | dash =>
          have hc : c = '-' := by grind [State.stay?]
          have hpush : s.push c = { s with state := .lineComment, pending := s.pending.tail } := by
            simp [push, hs, hc]
          rw [hpush]
          exact .opens (.inl ⟨hs, hc⟩) rfl
      | slash =>
          have hc : c = '*' := by grind [State.stay?]
          have hpush : s.push c = { s with state := .blockComment, pending := s.pending.tail } := by
            simp [push, hs, hc]
          rw [hpush]
          exact .opens (.inr ⟨hs, hc⟩) rfl
      | quoted quote => grind [State.stay?]
      | escaped quote => simp [hs, State.stay?] at hstay
      | lineComment | blockComment | blockCommentStar =>
          exact reads_push_of_isComment (by rw [hs]; rfl) c

theorem feed_of_stayOver? {text : List Char} {s : Scanner} {next : State}
    (h : s.state.stayOver? text = some next) :
    s.feed text = ⟨next, text.reverse ++ s.pending, s.cut⟩ := by
  induction text generalizing s with
  | nil =>
      cases h
      rfl
  | cons c rest ih =>
      obtain ⟨middle, hc, hrest⟩ := Option.bind_eq_some_iff.1 h
      rw [feed_cons, push_of_stay? hc, ih hrest]
      simp [keep]

/-- Read again from plain text on, the pending text stays as it is and leads to `state`. -/
def PendingLeadsTo (s : Scanner) (state : State) : Prop :=
  State.plain.stayOver? s.pending.reverse = some state

/--
The pending text reads as itself, up to the context of the scan. So does the text before a sign that
may still be taken back.
-/
structure Echoes (s : Scanner) : Prop where
  leads : s.PendingLeadsTo s.state.outside
  sign : s.state = .dash ∨ s.state = .slash →
    State.plain.stayOver? s.pending.tail.reverse = some .plain

theorem echoes_start : start.Echoes := ⟨rfl, fun h => by simp [start] at h⟩

theorem PendingLeadsTo.keep {s : Scanner} {state next : State} {c : Char}
    (h : s.PendingLeadsTo state) (hc : state.stay? c = some next) :
    (s.keep c next).PendingLeadsTo next := by
  unfold PendingLeadsTo at *
  simp only [Scanner.keep, List.reverse_cons, State.stayOver?_concat, h, Option.bind_some, hc]

theorem echoes_of_outside {s : Scanner} (hs : s.state.outside = .plain)
    (hdash : s.state ≠ .dash) (hslash : s.state ≠ .slash) (h : s.PendingLeadsTo .plain) :
    s.Echoes := by
  refine ⟨hs ▸ h, fun hsign => ?_⟩
  rcases hsign with hsign | hsign
  · exact absurd hsign hdash
  · exact absurd hsign hslash

theorem echoes_of_plain {s : Scanner} (hs : s.state = .plain) (h : s.PendingLeadsTo .plain) :
    s.Echoes := echoes_of_outside (by rw [hs]; rfl) (by simp [hs]) (by simp [hs]) h

theorem echoes_push {s : Scanner} (h : s.Echoes) (c : Char) : (s.push c).Echoes := by
  have hleads := h.leads
  have hreads := s.reads_push c
  generalize s.push c = after at hreads ⊢
  cases hreads with
  | @stays next hstay =>
      obtain ⟨hstate, hnext, hplain⟩ := State.outside_of_stay? hstay
      rw [hstate] at hleads
      refine ⟨?_, fun hsign => ?_⟩
      · have hkept := hleads.keep hstay
        rwa [← hnext] at hkept
      · rw [hplain hsign] at hleads
        exact hleads
  | cuts hs hc => exact echoes_of_plain rfl rfl
  | opens hs hnext =>
      obtain ⟨houtside, hdash, hslash⟩ := State.outside_of_isComment hnext
      have hsign : s.state = .dash ∨ s.state = .slash := hs.imp And.left And.left
      exact echoes_of_outside houtside hdash hslash (h.sign hsign)
  | endsLine hs hc =>
      rw [hs] at hleads
      exact echoes_of_plain rfl (hleads.keep (by rw [hc]; rfl))
  | skips hs hnext =>
      rw [(State.outside_of_isComment hs).1] at hleads
      rcases hnext with rfl | hnext
      · exact echoes_of_plain rfl hleads
      · obtain ⟨houtside, hdash, hslash⟩ := State.outside_of_isComment hnext
        exact echoes_of_outside houtside hdash hslash hleads

end Scanner

/-! ## Units -/

/-- A text that a scan leaves in one piece: nothing in it cuts, and it starts with no blank. -/
structure Scan.IsUnit (text : List Char) : Prop where
  stays : (State.plain.stayOver? text).isSome
  head : ∃ c ∈ text.head?, Text.isBlank c = false

namespace Scan

theorem isUnit_of_prefix_trimStart {text part : List Char}
    (h : (State.plain.stayOver? text).isSome) (hpart : part <+: Text.trimStart text)
    (hne : part ≠ []) : IsUnit part := by
  rw [← State.stayOver?_trimStart] at h
  refine ⟨State.isSome_stayOver?_of_prefix hpart h, ?_⟩
  obtain ⟨c, rest, rfl⟩ := List.exists_cons_of_ne_nil hne
  obtain ⟨later, hlater⟩ := hpart
  exact ⟨c, rfl, Text.isBlank_head?_trimStart text c (by rw [← hlater]; rfl)⟩

/-- A unit starts with a character that no trim removes. -/
theorem IsUnit.exists_cons {text : List Char} (h : IsUnit text) :
    ∃ c rest, text = c :: rest ∧ Text.isTrailing c = false := by
  obtain ⟨c, hc, hblank⟩ := h.head
  obtain ⟨rest, rfl⟩ := List.head?_eq_some_iff.1 hc
  refine ⟨c, rest, rfl, ?_⟩
  have hcut : c ≠ ';' := by
    rintro rfl
    have hstays := h.stays
    simp [State.stayOver?, State.stay?] at hstays
  simp [Text.isTrailing, hblank, hcut]

theorem IsUnit.trimTrailing {text : List Char} (h : IsUnit text) :
    IsUnit (Text.trimTrailing text) := by
  refine ⟨State.isSome_stayOver?_of_prefix (Text.trimTrailing_prefix text) h.stays, ?_⟩
  obtain ⟨c, rest, rfl, hc⟩ := h.exists_cons
  obtain ⟨d, hd, hblank⟩ := h.head
  rw [Text.trimTrailing_cons hc]
  exact ⟨d, hd, hblank⟩

end Scan

namespace Scanner

/-- Every statement cut so far is a unit. -/
def CutsUnits (s : Scanner) : Prop := ∀ text ∈ s.cut, IsUnit text.toList

theorem CutsUnits.close {s : Scanner} (h : s.CutsUnits) {text : List Char}
    (ht : text ≠ [] → IsUnit text) : (s.close text).CutsUnits := by
  unfold CutsUnits Scanner.close
  cases text with
  | nil => exact h
  | cons c rest =>
      intro cut hmem
      simp only [List.isEmpty_cons, Bool.false_eq_true, if_false, List.mem_cons] at hmem
      rcases hmem with rfl | hmem
      · rw [String.toList_ofList]
        exact ht (by simp)
      · exact h cut hmem

theorem echoes_feed (text : List Char) {s : Scanner} (h : s.Echoes) : (s.feed text).Echoes := by
  induction text generalizing s with
  | nil => exact h
  | cons c rest ih => exact ih (echoes_push h c)

theorem echoes_scan (script : String) : (scan script).Echoes :=
  echoes_feed script.toList echoes_start

/-- A text that was cut was pending, in plain text, behind some part of what was read. -/
theorem exists_part_of_mem_cut (text : List Char) {s : Scanner} {cut : String}
    (h : cut ∈ (s.feed text).cut) :
    cut ∈ s.cut ∨ ∃ part, (s.feed part).state = .plain ∧ (s.feed part).pendingText ≠ [] ∧
      cut.toList = (s.feed part).pendingText := by
  induction text using List.reverseRecOn with
  | nil => exact .inl h
  | append_singleton before c ih =>
      rw [feed_append, feed_cons, feed_nil] at h
      have hreads := (s.feed before).reads_push c
      generalize (s.feed before).push c = after at hreads h
      cases hreads with
      | cuts hplain hc =>
          by_cases hne : (s.feed before).pendingText = []
          · exact ih (by simpa [close, hne] using h)
          · simp only [close, List.isEmpty_iff, hne, if_false, List.mem_cons] at h
            rcases h with rfl | h
            · exact .inr ⟨before, hplain, hne, String.toList_ofList⟩
            · exact ih h
      | stays hstay => exact ih h
      | opens hs hnext => exact ih h
      | endsLine hs hc => exact ih h
      | skips hs hnext => exact ih h

theorem cutsUnits_feed (text : List Char) : (start.feed text).CutsUnits := by
  intro cut hcut
  obtain hstart | ⟨part, hplain, hne, htext⟩ := exists_part_of_mem_cut text hcut
  · simp [start] at hstart
  · have hleads := (echoes_feed part echoes_start).leads
    rw [hplain] at hleads
    rw [htext]
    exact isUnit_of_prefix_trimStart (Option.isSome_of_eq_some hleads)
      (Text.trim_prefix_trimStart _) hne

theorem Echoes.isUnit_restText {s : Scanner} (h : s.Echoes) (hne : s.restText ≠ []) :
    IsUnit s.restText := by
  have hrest : (State.plain.stayOver? (Text.trimTrailing s.pending.reverse)).isSome :=
    State.isSome_stayOver?_of_prefix (Text.trimTrailing_prefix _) (Option.isSome_of_eq_some h.leads)
  exact isUnit_of_prefix_trimStart hrest (List.prefix_refl _) hne

end Scanner

/-- Every statement of a script is a unit. -/
theorem isUnit_of_mem_split {script : String} {s : Statement} (h : s ∈ split script) :
    IsUnit s.text.toList := by
  have hall : ((scan script).close (scan script).restText).CutsUnits :=
    (Scanner.cutsUnits_feed script.toList).close (Scanner.echoes_scan script).isUnit_restText
  have htext : s.text ∈ (split script).map Statement.text := List.mem_map_of_mem h
  rw [split, Scanner.finish, Statement.map_text_number, List.mem_reverse] at htext
  exact hall s.text htext

/-- The text without semicolons and blanks at its end. -/
def Text.bare (text : String) : String := String.ofList (Text.trimTrailing text.toList)

theorem Text.toList_bare (text : String) :
    (Text.bare text).toList = Text.trimTrailing text.toList := String.toList_ofList

@[simp] theorem Text.bare_bare (text : String) : Text.bare (Text.bare text) = Text.bare text := by
  rw [bare, toList_bare, trimTrailing_trimTrailing, bare]

theorem scan_of_stayOver? {text : String} {state : State}
    (h : State.plain.stayOver? text.toList = some state) :
    scan text = ⟨state, text.toList.reverse, []⟩ := by
  rw [scan, Scanner.feed_of_stayOver? h]
  simp [Scanner.start]

/-- A unit that is scanned again is one statement and loses semicolons and blanks at its end. -/
theorem split_of_isUnit {text : String} (h : IsUnit text.toList) :
    split text = [⟨0, Text.bare text⟩] := by
  obtain ⟨state, hstate⟩ := Option.isSome_iff_exists.1 h.stays
  have hscan := scan_of_stayOver? hstate
  have hrest : (scan text).restText = Text.trimTrailing text.toList := by
    obtain ⟨c, hc, hblank⟩ := h.trimTrailing.head
    obtain ⟨rest, hcons⟩ := List.head?_eq_some_iff.1 hc
    rw [hscan, Scanner.restText, List.reverse_reverse, hcons, Text.trimStart,
      List.dropWhile_cons_of_neg (by simp [hblank])]
  obtain ⟨c, rest, hcons, _⟩ := h.trimTrailing.exists_cons
  rw [split, Scanner.finish, hrest]
  simp [Scanner.close, hscan, hcons, Text.bare, Statement.number]

end SqlScript
