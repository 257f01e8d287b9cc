import SqlScript.Proofs.Scan.Ends
import SqlScript.Proofs.Text.Pieces

/-!
# Scanning rejoined statements

Statements that are joined by semicolons are cut apart again but for one thing: a semicolon behind
a dash or a slash is literal, so that it goes into a statement with the texts around it, and the last
statement loses the semicolons at its end (`rejoin_eq_rejoined`). What is left of them then is
settled, as no text but the last ends behind a dash or a slash any more. So the statements of a
script come back if and only if they are settled (`split_intercalate_eq_split_iff`), and whatever
they come back as does not change again (`rejoin_rejoin_map_text_split`).
-/

namespace SqlScript

open Scan

theorem toList_intercalate_cons_cons (text next : String) (later : List String) :
    (";".intercalate (text :: next :: later)).toList =
      text.toList ++ ';' :: (";".intercalate (next :: later)).toList :=
  Text.toList_intercalate_cons_cons ';' text next later

theorem intercalate_joined (text next : String) (later : List String) :
    ";".intercalate ((text ++ ";" ++ next) :: later) =
      ";".intercalate (text :: next :: later) := by
  cases later <;> simp [String.intercalate_cons_cons, String.append_assoc]

theorem dropLast_append_toList_getLast? {α : Type} (items : List α) :
    items.dropLast ++ items.getLast?.toList = items := by
  cases hlast : items.getLast? with
  | none => simp [List.getLast?_eq_none_iff.1 hlast]
  | some last => exact List.dropLast_append_getLast? last hlast

/-- Whether a text leads from plain text to plain text, so that a semicolon behind it cuts. -/
def Scan.isClosed (text : String) : Bool :=
  decide (State.plain.stayOver? text.toList = some .plain)

theorem textsOf_singleton_of_isUnit {text : String} (h : IsUnit text.toList) :
    textsOf [text.toList] = [Text.bare text] := by
  obtain ⟨state, hstate⟩ := Option.isSome_iff_exists.1 h.stays
  have hsplit := map_text_split_eq_texts text
  rw [split_of_isUnit h, Scanner.texts_eq, scan_of_stayOver? hstate] at hsplit
  simpa using hsplit.symm

/-! ## Divisions -/

namespace Scan

/-- Texts such as a script is divided into. -/
structure IsDivision (texts : List String) : Prop where
  unit : ∀ t ∈ texts, IsUnit t.toList
  trimmed : ∀ t ∈ texts, Text.IsTrimmed t.toList
  rest : ∀ t ∈ texts.dropLast, ∃ state, State.plain.stayOver? t.toList = some state ∧
    state.isAtRest = true

variable {text next : String} {later : List String}

theorem IsDivision.tail (h : IsDivision (text :: next :: later)) : IsDivision (next :: later) where
  unit t ht := h.unit t (List.mem_cons_of_mem _ ht)
  trimmed t ht := h.trimmed t (List.mem_cons_of_mem _ ht)
  rest t ht := h.rest t (by simp [List.dropLast_cons_cons, ht])

/-- Two texts whose semicolon is literal are one text of a division. -/
theorem IsDivision.join (h : IsDivision (text :: next :: later)) (hopen : ¬ isClosed text) :
    IsDivision ((text ++ ";" ++ next) :: later) := by
  obtain ⟨state, hstate, hatRest⟩ := h.rest text (by simp)
  have hsign : state.stay? ';' = some .plain := by
    cases state <;> simp_all [State.isAtRest, isClosed, State.stay?]
  have hstays : State.plain.stayOver? (text ++ ";" ++ next).toList =
      State.plain.stayOver? next.toList := by
    simp [State.stayOver?_append, hstate, State.stayOver?, hsign]
  obtain ⟨c, rest, htext, hc⟩ := (h.unit text (by simp)).exists_cons
  obtain ⟨d, others, hnext, _⟩ := (h.unit next (by simp)).exists_cons
  have hhead : (text ++ ";" ++ next).toList.head? = text.toList.head? := by simp [htext]
  have hlast : (text ++ ";" ++ next).toList.getLast? = next.toList.getLast? := by
    rw [String.toList_append, List.getLast?_append_of_ne_nil _ (by simp [hnext])]
  refine ⟨?_, ?_, ?_⟩
  · refine List.forall_mem_cons.2 ⟨⟨?_, ?_⟩, fun t ht => h.unit t (by simp [ht])⟩
    · rw [hstays]
      exact (h.unit next (by simp)).stays
    · rw [hhead]
      exact (h.unit text (by simp)).head
  · refine List.forall_mem_cons.2 ⟨⟨?_, ?_⟩, fun t ht => h.trimmed t (by simp [ht])⟩
    · rw [hhead]
      exact (h.trimmed text (by simp)).1
    · rw [hlast]
      exact (h.trimmed next (by simp)).2
  · cases later with
    | nil => simp
    | cons third later =>
        rw [List.dropLast_cons_cons]
        refine List.forall_mem_cons.2 ⟨?_, fun t ht => h.rest t (by simp [ht])⟩
        rw [hstays]
        exact h.rest next (by simp)

/--
What a text and those behind it are cut apart into once semicolons join them: a semicolon behind a
text that is not closed is literal.
-/
def cutApart (text : String) : List String → List String
  | [] => [Text.bare text]
  | next :: later =>
      if isClosed text then text :: cutApart next later
      else cutApart (text ++ ";" ++ next) later

def rejoined : List String → List String
  | [] => []
  | text :: later => cutApart text later

/-- Texts that are as they will be once they are joined and scanned again. -/
structure IsSettled (texts : List String) : Prop where
  closed : ∀ t ∈ texts.dropLast, isClosed t = true
  bare : ∀ t ∈ texts.getLast?, Text.bare t = t

theorem cutApart_ne_nil (text : String) (later : List String) : cutApart text later ≠ [] := by
  induction later generalizing text with
  | nil => simp [cutApart]
  | cons next later ih =>
      rw [cutApart]
      split
      · exact List.cons_ne_nil _ _
      · exact ih _

theorem IsSettled.cons (h : isClosed text = true) {texts : List String} (hne : texts ≠ [])
    (hlater : IsSettled texts) : IsSettled (text :: texts) := by
  obtain ⟨next, later, rfl⟩ := List.exists_cons_of_ne_nil hne
  refine ⟨?_, ?_⟩
  · rw [List.dropLast_cons_cons]
    exact List.forall_mem_cons.2 ⟨h, hlater.closed⟩
  · rw [List.getLast?_cons_cons]
    exact hlater.bare

/-- Whatever is cut apart is settled. -/
theorem isSettled_cutApart (text : String) (later : List String) :
    IsSettled (cutApart text later) := by
  induction later generalizing text with
  | nil => exact ⟨by simp [cutApart], by simp [cutApart]⟩
  | cons next later ih =>
      rw [cutApart]
      split
      · rename_i hclosed
        exact (ih next).cons hclosed (cutApart_ne_nil next later)
      · exact ih _

theorem isSettled_rejoined (texts : List String) : IsSettled (rejoined texts) := by
  cases texts with
  | nil => exact ⟨by simp [rejoined], by simp [rejoined]⟩
  | cons text later => exact isSettled_cutApart text later

/-- Where every semicolon cuts, only the last text can become shorter. -/
theorem rejoined_of_isClosed {texts : List String} (h : ∀ t ∈ texts.dropLast, isClosed t = true) :
    rejoined texts = texts.dropLast ++ texts.getLast?.toList.map Text.bare := by
  cases texts with
  | nil => rfl
  | cons text later =>
      rw [rejoined]
      induction later generalizing text with
      | nil => rfl
      | cons next later ih =>
          rw [List.dropLast_cons_cons, List.forall_mem_cons] at h
          rw [cutApart, if_pos h.1, ih next h.2, List.dropLast_cons_cons, List.getLast?_cons_cons,
            List.cons_append]

theorem IsSettled.rejoined_eq {texts : List String} (h : IsSettled texts) :
    rejoined texts = texts := by
  have hlast : texts.getLast?.toList.map Text.bare = texts.getLast?.toList := by
    cases hlast : texts.getLast? with
    | none => rfl
    | some last => simp [h.bare last hlast]
  rw [rejoined_of_isClosed h.closed, hlast, dropLast_append_toList_getLast?]

theorem length_cutApart_le (text : String) (later : List String) :
    (cutApart text later).length ≤ later.length + 1 := by
  induction later generalizing text with
  | nil => simp [cutApart]
  | cons next later ih =>
      rw [cutApart]
      split
      · simpa using ih next
      · exact Nat.le_succ_of_le (ih _)

/-- Every literal semicolon makes one text less. -/
theorem isClosed_of_length_le_rejoined {texts : List String}
    (h : texts.length ≤ (rejoined texts).length) : ∀ t ∈ texts.dropLast, isClosed t = true := by
  cases texts with
  | nil => simp
  | cons text later =>
      rw [rejoined] at h
      induction later generalizing text with
      | nil => simp
      | cons next later ih =>
          rw [List.dropLast_cons_cons]
          rw [cutApart] at h
          split at h
          · rename_i hclosed
            exact List.forall_mem_cons.2 ⟨hclosed, ih next (Nat.le_of_succ_le_succ h)⟩
          · have hle := length_cutApart_le (text ++ ";" ++ next) later
            simp only [List.length_cons] at h
            omega

end Scan

namespace Scanner

variable {s : Scanner} {text : String}

/-- A semicolon behind a closed text ends the statement, which keeps its text if that is trimmed. -/
theorem feed_semicolon_of_isClosed (h : isClosed text = true) (hne : text.toList ≠ [])
    (htrim : Text.IsTrimmed text.toList) (hs : s.state = .plain) (hpending : s.pending = [])
    (rest : List Char) :
    s.feed (text.toList ++ ';' :: rest) = (⟨.plain, [], text :: s.cut⟩ : Scanner).feed rest := by
  have hplain : s.state.stayOver? text.toList = some .plain := by simpa [isClosed, hs] using h
  have hpush : (⟨.plain, text.toList.reverse, s.cut⟩ : Scanner).push ';' =
      ⟨.plain, [], text :: s.cut⟩ := by
    simp [push, pushPlain, pendingText, Text.trim_eq_self htrim, close, hne]
  rw [feed_append, feed_of_stayOver? hplain, feed_cons, hpending, List.append_nil, hpush]

/-- A scan cuts the texts of a division apart again, except where a semicolon is literal. -/
theorem texts_feed_intercalate {later : List String} (h : IsDivision (text :: later))
    (hs : s.state = .plain) (hpending : s.pending = []) :
    (s.feed (";".intercalate (text :: later)).toList).texts =
      s.cut.reverse ++ cutApart text later := by
  induction later generalizing s text with
  | nil =>
      have hunit := h.unit text (by simp)
      obtain ⟨state, hstate⟩ := Option.isSome_iff_exists.1 hunit.stays
      rw [← hs] at hstate
      rw [String.intercalate_singleton, feed_of_stayOver? hstate, texts_eq, hpending, cutApart]
      simp [textsOf_singleton_of_isUnit hunit]
  | cons next later ih =>
      rw [cutApart]
      split
      · rename_i hclosed
        obtain ⟨c, rest, htext, _⟩ := (h.unit text (by simp)).exists_cons
        have hne : text.toList ≠ [] := by simp [htext]
        rw [toList_intercalate_cons_cons,
          feed_semicolon_of_isClosed hclosed hne (h.trimmed text (by simp)) hs hpending,
          ih h.tail rfl rfl]
        simp
      · rename_i hopen
        rw [← intercalate_joined]
        exact ih (h.join hopen) hs hpending

end Scanner

/-- The texts that a scan finds in these texts once semicolons join them. -/
def rejoin (texts : List String) : List String :=
  (split (";".intercalate texts)).map Statement.text

theorem rejoin_eq_rejoined {texts : List String} (h : IsDivision texts) :
    rejoin texts = rejoined texts := by
  rw [rejoin, map_text_split_eq_texts, scan]
  cases texts with
  | nil => rfl
  | cons text later => exact Scanner.texts_feed_intercalate h rfl rfl

section

variable {script : String} {s : Statement}

theorem isClosed_iff_of_mem_dropLast (h : s ∈ (split script).dropLast) :
    isClosed s.text = true ↔ (scan s.text).state ≠ .dash ∧ (scan s.text).state ≠ .slash := by
  obtain ⟨state, hstate, hrests⟩ := exists_stayOver?_of_mem_dropLast h
  rw [scan_of_stayOver? hstate, isClosed, hstate]
  cases state <;> simp_all [State.isAtRest]

theorem forall_mem_dropLast_map {P : String → Prop} :
    (∀ text ∈ ((split script).map Statement.text).dropLast, P text) ↔
      ∀ s ∈ (split script).dropLast, P s.text := by
  rw [← List.map_dropLast, List.forall_mem_map]

theorem isDivision_split (script : String) :
    IsDivision ((split script).map Statement.text) where
  unit := List.forall_mem_map.2 fun _ hs => isUnit_of_mem_split hs
  trimmed := List.forall_mem_map.2 fun _ hs => isTrimmed_of_mem_split hs
  rest := forall_mem_dropLast_map.2 fun _ hs => exists_stayOver?_of_mem_dropLast hs

/-- Rejoined statements that are as many as before were all cut apart again. -/
theorem isClosed_of_length_le
    (h : (split script).length ≤
      (split (";".intercalate ((split script).map Statement.text))).length) :
    ∀ s ∈ (split script).dropLast, isClosed s.text = true := by
  have hrejoin := congrArg List.length (rejoin_eq_rejoined (isDivision_split script))
  rw [rejoin, List.length_map] at hrejoin
  rw [hrejoin, ← List.length_map (f := Statement.text)] at h
  exact forall_mem_dropLast_map.1 (isClosed_of_length_le_rejoined h)

/-- If every joining semicolon cuts, all statements come back and the last may be shorter. -/
theorem map_text_split_intercalate (h : ∀ s ∈ (split script).dropLast, isClosed s.text = true) :
    (split (";".intercalate ((split script).map Statement.text))).map Statement.text =
      (split script).dropLast.map Statement.text ++
        (split script).getLast?.toList.map fun s => Text.bare s.text := by
  have hrejoin := rejoin_eq_rejoined (isDivision_split script)
  rw [rejoin] at hrejoin
  rw [hrejoin, rejoined_of_isClosed (forall_mem_dropLast_map.2 h), ← List.map_dropLast,
    List.getLast?_map]
  cases (split script).getLast? <;> simp

end

/--
Statements that are joined by semicolons are scanned as the same statements if and only if all but
the last leave a scan elsewhere than behind a dash or a slash, and the last does not end in a
semicolon.
-/
theorem split_intercalate_eq_split_iff (script : String) :
    split (";".intercalate ((split script).map Statement.text)) = split script ↔
      (∀ s ∈ (split script).dropLast,
        (scan s.text).state ≠ .dash ∧ (scan s.text).state ≠ .slash) ∧
      ∀ s ∈ (split script).getLast?, s.text.toList.getLast? ≠ some ';' := by
  have hlast : (∀ s ∈ (split script).getLast?, s.text.toList.getLast? ≠ some ';') ↔
      ∀ s ∈ (split script).getLast?, Text.bare s.text = s.text := by
    refine forall_congr' fun s => forall_congr' fun hs => ?_
    exact (Text.bare_eq_self_iff (isTrimmed_of_mem_split (List.mem_of_getLast? hs))).symm
  have hclosed : (∀ s ∈ (split script).dropLast,
      (scan s.text).state ≠ .dash ∧ (scan s.text).state ≠ .slash) ↔
      ∀ s ∈ (split script).dropLast, isClosed s.text = true :=
    forall_congr' fun s => forall_congr' fun hs => (isClosed_iff_of_mem_dropLast hs).symm
  have hends (hall : ∀ s ∈ (split script).dropLast, isClosed s.text = true) :
      split (";".intercalate ((split script).map Statement.text)) = split script ↔
        ∀ s ∈ (split script).getLast?, Text.bare s.text = s.text := by
    rw [split_eq_split_iff, map_text_split_intercalate hall]
    conv_lhs => rhs; rw [← dropLast_append_toList_getLast? (split script), List.map_append]
    rw [List.append_cancel_left_eq, List.map_inj_left]
    simp
  rw [hclosed, hlast]
  constructor
  · intro h
    have hall := isClosed_of_length_le (by rw [h] : (split script).length ≤ _)
    exact ⟨hall, (hends hall).1 h⟩
  · rintro ⟨hall, hbare⟩
    exact (hends hall).2 hbare

/-- A semicolon behind a dash and a line that ends there joins what it should keep apart. -/
example : (split "SELECT 1 -\n; SELECT 2;").map Statement.text = ["SELECT 1 -", "SELECT 2"] ∧
    (split "SELECT 1 -;SELECT 2").map Statement.text = ["SELECT 1 -;SELECT 2"] := by
  decide +kernel

/-- What the statements of a script come back as, once they are joined, comes back as it is. -/
theorem rejoin_rejoin_map_text_split (script : String) :
    rejoin (rejoin ((split script).map Statement.text)) =
      rejoin ((split script).map Statement.text) := by
  have hfirst := rejoin_eq_rejoined (isDivision_split script)
  have hsecond := rejoin_eq_rejoined
    (isDivision_split (";".intercalate ((split script).map Statement.text)))
  have hsettled := isSettled_rejoined ((split script).map Statement.text)
  rw [← hfirst] at hsettled
  exact hsecond.trans hsettled.rejoined_eq

end SqlScript
