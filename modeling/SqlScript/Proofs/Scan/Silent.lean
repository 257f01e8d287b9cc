import SqlScript.Proofs.Scan.Grammar

/-!
# Texts without a statement

A scan finds no statement in a text if and only if the text is made of comments, cuts and blanks
(`split_eq_nil_iff`).
-/

namespace SqlScript

namespace Scan

/-- A comment, a cut or a blank: a token that makes no statement. -/
def Token.isSilent : Token → Bool
  | lineComment _ | blockComment _ | cut => true
  | sign _ _ | string _ _ => false
  | plain c => Text.isBlank c

/-- A text of which a scan takes notice nowhere. -/
def IsSilent (text : String) : Prop := ∀ token ∈ tokens text.toList, token.isSilent = true

theorem Token.isBlank_of_isSilent {token : Token} (h : token.isSilent = true) :
    ∀ c ∈ token.kept, Text.isBlank c = true := by
  intro c hc
  cases token with
  | lineComment body =>
      have hline : c = '\n' := by simpa using (List.mem_filter.1 hc).2
      rw [hline]
      decide
  | blockComment body => simp [kept] at hc
  | cut => simp [kept] at hc
  | sign c next => simp [isSilent] at h
  | string quote body => simp [isSilent] at h
  | plain d =>
      rw [List.mem_singleton.1 hc]
      exact h

/-- A token that is read leaves a character that no trim removes, unless it is silent. -/
theorem Token.isSilent_read {c : Char} {rest : List Char}
    (h : ∀ d ∈ (read c rest).1.kept, Text.isTrailing d = true) :
    (read c rest).1.isSilent = true := by
  revert h
  unfold read
  split
  · exact fun _ => rfl
  split
  · exact fun _ => rfl
  split
  · rename_i hsign
    intro h
    have hc := h c List.mem_cons_self
    rcases hsign with rfl | rfl
    · exact absurd hc (by decide)
    · exact absurd hc (by decide)
  split
  · rename_i hquote
    intro h
    have hc := h c List.mem_cons_self
    rcases hquote with rfl | rfl
    · exact absurd hc (by decide)
    · exact absurd hc (by decide)
  split
  · exact fun _ => rfl
  · rename_i hcut
    intro h
    have hc := h c List.mem_cons_self
    rw [Text.isTrailing, Bool.or_eq_true, beq_iff_eq] at hc
    exact hc.resolve_left hcut

theorem Token.isSilent_of_mem_tokens {text : List Char} {token : Token} (hmem : token ∈ tokens text)
    (h : ∀ c ∈ token.kept, Text.isTrailing c = true) : token.isSilent = true := by
  induction text using tokens.induct with
  | case1 => simp at hmem
  | case2 c rest ih =>
      rw [tokens_cons] at hmem
      rcases List.mem_cons.1 hmem with rfl | hmem
      · exact isSilent_read h
      · exact ih hmem

/-- The pieces hold the characters that the tokens keep. -/
theorem forall_mem_pieces {tokens : List Token} {P : Char → Prop} :
    (∀ piece ∈ pieces tokens, ∀ c ∈ piece, P c) ↔ ∀ token ∈ tokens, ∀ c ∈ token.kept, P c := by
  induction tokens with
  | nil => simp [pieces]
  | cons token later ih =>
      rw [List.forall_mem_cons, ← ih]
      by_cases hcut : token = .cut
      · rw [hcut, pieces_cut]
        simp [Token.kept]
      obtain ⟨piece, rest, hpieces⟩ := List.exists_cons_of_ne_nil (pieces_ne_nil later)
      rw [pieces_of_ne_cut hcut hpieces, hpieces, List.forall_mem_cons, List.forall_mem_cons,
        List.forall_mem_append, and_assoc]

theorem textsOf_eq_nil_iff {pieces : List (List Char)} :
    textsOf pieces = [] ↔ ∀ text ∈ trimPieces pieces, text = [] := by
  simp [textsOf, List.filter_eq_nil_iff]

theorem textsOf_eq_nil_of_isBlank {pieces : List (List Char)}
    (h : ∀ piece ∈ pieces, ∀ c ∈ piece, Text.isBlank c = true) : textsOf pieces = [] := by
  rw [textsOf_eq_nil_iff]
  induction pieces with
  | nil => simp [trimPieces]
  | cons piece later ih =>
      obtain ⟨hpiece, hlater⟩ := List.forall_mem_cons.1 h
      have htrim := Text.trim_eq_nil_iff.2 hpiece
      by_cases hlast : later = []
      · rw [hlast, trimPieces, htrim]
        simp [Text.trimTrailing, Text.dropEndWhile]
      · rw [trimPieces_cons piece hlast, htrim]
        exact List.forall_mem_cons.2 ⟨rfl, ih hlater⟩

theorem isTrailing_of_textsOf_eq_nil {pieces : List (List Char)} (h : textsOf pieces = []) :
    ∀ piece ∈ pieces, ∀ c ∈ piece, Text.isTrailing c = true := by
  rw [textsOf_eq_nil_iff] at h
  induction pieces with
  | nil => simp
  | cons piece later ih =>
      by_cases hlast : later = []
      · rw [hlast, trimPieces, List.forall_mem_singleton] at h
        rw [hlast, List.forall_mem_singleton]
        exact Text.trimTrailing_trim_eq_nil_iff.1 h
      · rw [trimPieces_cons piece hlast, List.forall_mem_cons] at h
        have hpiece := Text.trim_eq_nil_iff.1 h.1
        refine List.forall_mem_cons.2 ⟨fun c hc => ?_, ih h.2⟩
        exact Text.isTrailing_of_isBlank (hpiece c hc)

end Scan

open Scan

/-- A scan finds no statement in a text that is silent, and in no other one. -/
theorem split_eq_nil_iff {text : String} : split text = [] ↔ IsSilent text := by
  rw [← List.map_eq_nil_iff (f := Statement.text), map_text_split]
  constructor
  · intro h token hmem
    have hpieces := isTrailing_of_textsOf_eq_nil h
    exact Token.isSilent_of_mem_tokens hmem (forall_mem_pieces.1 hpieces token hmem)
  · intro h
    refine textsOf_eq_nil_of_isBlank (forall_mem_pieces.2 fun token hmem => ?_)
    exact Token.isBlank_of_isSilent (h token hmem)

end SqlScript
