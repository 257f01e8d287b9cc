import Mathlib.Data.List.DropRight
import SqlScript.Text.Blank

/-!
# Trimming

Removal at one end of a text does not depend on removal at the other, and the ends that a scan and
the end of a script remove are parts of one another. So the order in which a text is trimmed never
matters.
-/

namespace SqlScript.Text

theorem dropEndWhile_prefix (p : Char → Bool) (text : List Char) :
    dropEndWhile p text <+: text := List.rdropWhile_prefix p text

theorem dropEndWhile_eq_nil_iff {p : Char → Bool} {text : List Char} :
    dropEndWhile p text = [] ↔ ∀ c ∈ text, p c = true := List.rdropWhile_eq_nil_iff

theorem dropEndWhile_eq_self_iff {p : Char → Bool} {text : List Char} :
    dropEndWhile p text = text ↔ ∀ c ∈ text.getLast?, p c = false := by
  rw [show dropEndWhile p text = text.rdropWhile p from rfl, List.rdropWhile_eq_self_iff]
  constructor
  · intro h c hc
    obtain ⟨before, rfl⟩ := List.getLast?_eq_some_iff.1 hc
    simpa using h (by simp)
  · intro h hne
    simpa using h _ (List.getLast?_eq_some_getLast hne)

theorem exists_dropEndWhile_append (p : Char → Bool) (text : List Char) :
    ∃ tail, dropEndWhile p text ++ tail = text ∧ ∀ c ∈ tail, p c = true :=
  ⟨text.rtakeWhile p, List.rdropWhile_append_rtakeWhile, fun _ => List.mem_rtakeWhile_imp⟩

/-- The first character stays as soon as anything does. -/
theorem dropEndWhile_cons (p : Char → Bool) (c : Char) (text : List Char) :
    dropEndWhile p (c :: text) =
      if dropEndWhile p text = [] then (if p c then [] else [c]) else c :: dropEndWhile p text := by
  unfold dropEndWhile
  rw [List.reverse_cons, List.dropWhile_append]
  by_cases h : text.reverse.dropWhile p = []
  · by_cases hc : p c <;> simp [h, hc]
  · simp [h]

theorem dropEndWhile_cons_of_neg {p : Char → Bool} {c : Char} (h : ¬ p c) (text : List Char) :
    dropEndWhile p (c :: text) = c :: dropEndWhile p text := by
  rw [dropEndWhile_cons]
  split
  · rename_i hnil
    rw [hnil]
  · rfl

/-- A character that stays keeps all that is before it. -/
theorem dropEndWhile_append_cons {p : Char → Bool} {c : Char} (h : p c = false)
    (text rest : List Char) :
    dropEndWhile p (text ++ c :: rest) = text ++ c :: dropEndWhile p rest := by
  induction text with
  | nil => exact dropEndWhile_cons_of_neg (by simp [h]) rest
  | cons d later ih =>
    rw [List.cons_append, dropEndWhile_cons, ih]
    simp

/-- Both ends of a text are trimmed independently. -/
theorem dropWhile_dropEndWhile (p q : Char → Bool) (text : List Char) :
    (dropEndWhile q text).dropWhile p = dropEndWhile q (text.dropWhile p) := by
  induction text with
  | nil => rfl
  | cons c text ih =>
    by_cases hp : p c
    · rw [List.dropWhile_cons_of_pos hp, ← ih, dropEndWhile_cons]
      by_cases hnil : dropEndWhile q text = []
      · rw [if_pos hnil, hnil]
        split <;> simp [hp]
      · rw [if_neg hnil, List.dropWhile_cons_of_pos hp]
    · rw [List.dropWhile_cons_of_neg hp, dropEndWhile_cons]
      split
      · split <;> simp [hp]
      · rw [List.dropWhile_cons_of_neg hp]

theorem dropWhile_dropWhile_of_imp {p q : Char → Bool} (h : ∀ c, p c → q c) (text : List Char) :
    (text.dropWhile p).dropWhile q = text.dropWhile q := by
  induction text with
  | nil => rfl
  | cons c text ih =>
    by_cases hp : p c
    · rw [List.dropWhile_cons_of_pos hp, List.dropWhile_cons_of_pos (h c hp), ih]
    · rw [List.dropWhile_cons_of_neg hp]

theorem dropEndWhile_dropEndWhile_of_imp {p q : Char → Bool} (h : ∀ c, p c → q c)
    (text : List Char) : dropEndWhile q (dropEndWhile p text) = dropEndWhile q text := by
  simp [dropEndWhile, dropWhile_dropWhile_of_imp h]

theorem isTrailing_of_isBlank {c : Char} (h : isBlank c = true) : isTrailing c = true := by
  simp [isTrailing, h]

theorem trim_eq_trimEnd_trimStart (text : List Char) :
    trim text = dropEndWhile isBlank (text.dropWhile isBlank) := rfl

/-- What the end of a script removes from its last statement contains what any statement loses. -/
theorem trimTrailing_trim (text : List Char) :
    trimTrailing (trim text) = trimStart (trimTrailing text) := by
  unfold trimTrailing trimStart
  rw [trim_eq_trimEnd_trimStart, dropEndWhile_dropEndWhile_of_imp (fun _ => isTrailing_of_isBlank),
    dropWhile_dropEndWhile]

@[simp] theorem trimTrailing_trimTrailing (text : List Char) :
    trimTrailing (trimTrailing text) = trimTrailing text :=
  dropEndWhile_dropEndWhile_of_imp (fun _ h => h) text

theorem trimTrailing_prefix (text : List Char) : trimTrailing text <+: text :=
  dropEndWhile_prefix _ text

theorem trimTrailing_cons {c : Char} (h : isTrailing c = false) (text : List Char) :
    trimTrailing (c :: text) = c :: trimTrailing text :=
  dropEndWhile_cons_of_neg (by simp [h]) text

theorem trim_prefix_trimStart (text : List Char) : trim text <+: trimStart text :=
  dropEndWhile_prefix _ _

theorem trim_infix_self (text : List Char) : trim text <:+: text :=
  (trim_prefix_trimStart text).isInfix.trans (List.dropWhile_suffix isBlank).isInfix

theorem trim_subset (text : List Char) : trim text ⊆ text := (trim_infix_self text).subset

/-- Trimming both ends leaves nothing of a text that the wider trim would remove as a whole. -/
theorem dropEndWhile_dropWhile_eq_nil_iff {p q : Char → Bool} (h : ∀ c, p c → q c)
    {text : List Char} : dropEndWhile q (text.dropWhile p) = [] ↔ ∀ c ∈ text, q c = true := by
  rw [dropEndWhile_eq_nil_iff]
  constructor
  · intro hrest c hc
    rw [← List.takeWhile_append_dropWhile (p := p) (l := text)] at hc
    rcases List.mem_append.1 hc with hlead | hlater
    · exact h c (List.mem_takeWhile_imp hlead)
    · exact hrest c hlater
  · intro hall c hc
    exact hall c ((List.dropWhile_suffix p).subset hc)

theorem trim_eq_nil_iff {text : List Char} : trim text = [] ↔ ∀ c ∈ text, isBlank c = true :=
  dropEndWhile_dropWhile_eq_nil_iff fun _ h => h

theorem trimTrailing_trim_eq_nil_iff {text : List Char} :
    trimTrailing (trim text) = [] ↔ ∀ c ∈ text, isTrailing c = true := by
  rw [trimTrailing_trim]
  unfold trimStart trimTrailing
  rw [dropWhile_dropEndWhile]
  exact dropEndWhile_dropWhile_eq_nil_iff fun _ => isTrailing_of_isBlank

theorem trimStart_append_cons {c : Char} (h : isBlank c = false) (text rest : List Char) :
    trimStart (text ++ c :: rest) = trimStart text ++ c :: rest := by
  unfold trimStart
  rw [List.dropWhile_append]
  by_cases hnil : text.dropWhile isBlank = []
  · simp [hnil, h]
  · simp [hnil]

theorem isBlank_of_isTrailing_eq_false {c : Char} (h : isTrailing c = false) :
    isBlank c = false := by
  rw [isTrailing, Bool.or_eq_false_iff] at h
  exact h.2

theorem trim_concat {c : Char} (h : isBlank c = true) (text : List Char) :
    trim (text ++ [c]) = trim text := by
  have hend : dropEndWhile isBlank (text ++ [c]) = dropEndWhile isBlank text := by
    simp [dropEndWhile, h]
  rw [trim_eq_trimEnd_trimStart, trim_eq_trimEnd_trimStart, ← dropWhile_dropEndWhile,
    ← dropWhile_dropEndWhile, hend]

/-- What is left by a trim starts with no blank. -/
theorem isBlank_head?_trimStart (text : List Char) :
    ∀ c ∈ (trimStart text).head?, isBlank c = false := by
  intro c hc
  have h := List.head?_dropWhile_not isBlank text
  unfold trimStart at hc
  rw [Option.mem_def.1 hc] at h
  exact h

/-- What is left of a text by removal at its end does not end in what was removed. -/
theorem getLast?_dropEndWhile (p : Char → Bool) (text : List Char) :
    ∀ c ∈ (dropEndWhile p text).getLast?, p c = false :=
  dropEndWhile_eq_self_iff.1 (dropEndWhile_dropEndWhile_of_imp (fun _ h => h) text)

theorem isTrimmed_trim (text : List Char) : IsTrimmed (trim text) := by
  refine ⟨?_, getLast?_dropEndWhile isBlank _⟩
  rw [trim_eq_trimEnd_trimStart, ← dropWhile_dropEndWhile]
  exact isBlank_head?_trimStart _

theorem isTrimmed_trimTrailing_trim (text : List Char) : IsTrimmed (trimTrailing (trim text)) := by
  constructor
  · rw [trimTrailing_trim]
    exact isBlank_head?_trimStart _
  · intro c hc
    exact isBlank_of_isTrailing_eq_false (getLast?_dropEndWhile isTrailing (trim text) c hc)

theorem trim_eq_self {text : List Char} (h : IsTrimmed text) : trim text = text := by
  have hstart : trimStart text = text := by
    rw [trimStart, List.dropWhile_eq_self_iff]
    intro hpos
    simpa using h.1 _ (List.head?_eq_getElem?.trans (List.getElem?_eq_getElem hpos))
  rw [trim, hstart, trimEnd, dropEndWhile_eq_self_iff]
  exact h.2

/-- A trimmed text keeps all that it has at its end unless that is a semicolon. -/
theorem trimTrailing_eq_self_iff {text : List Char} (h : IsTrimmed text) :
    trimTrailing text = text ↔ text.getLast? ≠ some ';' := by
  rw [trimTrailing, dropEndWhile_eq_self_iff]
  constructor
  · intro hlast hsemicolon
    exact absurd (hlast ';' hsemicolon) (by decide)
  · intro hlast c hc
    have hne : c ≠ ';' := by
      rintro rfl
      exact hlast hc
    simp [isTrailing, hne, h.2 c hc]

end SqlScript.Text
