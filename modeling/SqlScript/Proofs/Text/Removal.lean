import Mathlib.Data.List.Infix
import Mathlib.Data.List.Nodup
import Mathlib.Data.List.Perm.Subperm
import Mathlib.Data.List.Sigma
import SqlScript.Text.Removal

/-!
# Removal of a substring

Removal drops a part where it comes first and goes on behind it (`remove_append_self`,
`remove_cons_of_not_prefix_cons`). So every occurrence in the text loses a character
(`breaks_removeAll`), but characters around the dropped ones may make up the part again. Only
runs of one character never come back (`infix_of_infix_remove_replicate`).
-/

namespace SqlScript.Text

variable {part text : List Char} {parts : List (List Char)} {c : Char} {n : Nat}

@[simp] theorem remove_empty_part (text : List Char) : remove [] text = text := rfl

@[simp] theorem remove_empty_text (part : List Char) : remove part [] = [] := by
  unfold remove
  split <;> rfl

theorem removeFrom_eq (h : part ≠ []) (skip : Nat) (kept text : List Char) :
    removeFrom part skip kept text = kept.reverse ++ remove part (text.drop skip) := by
  have hremove (text : List Char) : remove part text = removeFrom part 0 [] text :=
    if_neg (by simpa using h)
  induction text generalizing skip kept with
  | nil => cases skip <;> simp [removeFrom]
  | cons c rest ih =>
    cases skip with
    | succ skip => exact ih skip kept
    | zero =>
      rw [List.drop_zero, hremove, removeFrom, removeFrom]
      split
      · rw [ih _ kept, ih _ []]
        rfl
      · rw [ih _ (c :: kept), ih _ [c]]
        simp

/-- A part that comes first is dropped. -/
theorem remove_append_self (part rest : List Char) :
    remove part (part ++ rest) = remove part rest := by
  cases part with
  | nil => rfl
  | cons c tail =>
    have hne : c :: tail ≠ [] := List.cons_ne_nil c tail
    have hstarts : (c :: tail).isPrefixOf (c :: (tail ++ rest)) = true :=
      List.isPrefixOf_iff_prefix.2 (List.prefix_append (c :: tail) rest)
    rw [List.cons_append, remove, if_neg (by simp), removeFrom, if_pos hstarts, removeFrom_eq hne]
    simp

/-- A character at which the part does not start is kept. -/
theorem remove_cons_of_not_prefix_cons (h : ¬ part <+: c :: text) :
    remove part (c :: text) = c :: remove part text := by
  have hne : part ≠ [] := by
    rintro rfl
    exact h List.nil_prefix
  have hstarts : ¬ part.isPrefixOf (c :: text) = true := by rwa [List.isPrefixOf_iff_prefix]
  rw [remove, if_neg (by simpa using hne), removeFrom, if_neg hstarts, removeFrom_eq hne]
  simp

/-- A text is read as its removal goes: past a part that comes first, or else past one character. -/
theorem remove_induction {motive : List Char → Prop} (hne : part ≠ []) (nil : motive [])
    (found : ∀ rest, motive rest → motive (part ++ rest))
    (other : ∀ c rest, ¬ part <+: c :: rest → motive rest → motive (c :: rest))
    (text : List Char) : motive text := by
  induction hlength : text.length using Nat.strong_induction_on generalizing text with
  | h length ih =>
    subst hlength
    by_cases hstarts : part <+: text
    · obtain ⟨rest, rfl⟩ := hstarts
      have hpos := List.length_pos_iff.2 hne
      exact found rest (ih rest.length (by simp; omega) rest rfl)
    · cases text with
      | nil => exact nil
      | cons c rest => exact other c rest hstarts (ih rest.length (by simp) rest rfl)

theorem remove_sublist (part text : List Char) : (remove part text).Sublist text := by
  by_cases hne : part = []
  · rw [hne, remove_empty_part]
  · induction text using remove_induction hne with
    | nil => simp
    | found rest ih =>
      rw [remove_append_self]
      exact ih.trans (List.sublist_append_right part rest)
    | other c rest hstarts ih =>
      rw [remove_cons_of_not_prefix_cons hstarts]
      exact ih.cons_cons c

/-- Removal leaves a text as it is if and only if the part is not in it. -/
theorem remove_eq_self_iff (hne : part ≠ []) : remove part text = text ↔ ¬ part <:+: text := by
  induction text using remove_induction hne with
  | nil => simpa using hne
  | found rest ih =>
    have hlength := (remove_sublist part rest).length_le
    have hpos := List.length_pos_iff.2 hne
    rw [remove_append_self]
    refine iff_of_false (fun hsame => ?_) fun h => h (List.prefix_append part rest).isInfix
    have := congrArg List.length hsame
    rw [List.length_append] at this
    omega
  | other c rest hstarts ih =>
    rw [remove_cons_of_not_prefix_cons hstarts, List.cons.injEq, List.infix_cons_iff, ih]
    simp [hstarts]

/-! ## Several parts -/

theorem removeAll_cons (part : List Char) (parts : List (List Char)) (text : List Char) :
    removeAll (part :: parts) text = removeAll parts (remove part text) := rfl

theorem removeAll_sublist (parts : List (List Char)) (text : List Char) :
    (removeAll parts text).Sublist text := by
  induction parts generalizing text with
  | nil => exact .refl text
  | cons part parts ih => exact (ih (remove part text)).trans (remove_sublist part text)

theorem removeAll_append (before after : List (List Char)) (text : List Char) :
    removeAll (before ++ after) text = removeAll after (removeAll before text) :=
  List.foldl_append

/-- Several removals leave a text as it is only if each of them does: none makes up for another. -/
theorem removeAll_eq_self_iff :
    removeAll parts text = text ↔ ∀ part ∈ parts, remove part text = text := by
  induction parts with
  | nil => simp [removeAll]
  | cons part parts ih =>
    rw [List.forall_mem_cons, ← ih]
    constructor
    · intro h
      have hpasses := removeAll_sublist parts (remove part text)
      rw [← removeAll_cons, h] at hpasses
      have hremove := (remove_sublist part text).antisymm hpasses
      exact ⟨hremove, by rwa [removeAll_cons, hremove] at h⟩
    · rintro ⟨hremove, h⟩
      rwa [removeAll_cons, hremove]

/-! ## Runs of one character -/

theorem replicate_prefix_replicate {m : Nat} (h : m ≤ n) :
    List.replicate m c <+: List.replicate n c :=
  ⟨List.replicate (n - m) c, by rw [List.replicate_append_replicate, Nat.add_sub_cancel' h]⟩

theorem replicate_prefix_of_remove (hn : 0 < n) {m : Nat}
    (h : List.replicate m c <+: remove (List.replicate n c) text) :
    m < n ∧ List.replicate m c <+: text := by
  have hne : List.replicate n c ≠ [] := by simpa using hn.ne'
  induction text using remove_induction hne generalizing m with
  | nil =>
    rw [remove_empty_text, List.prefix_nil, List.replicate_eq_nil_iff] at h
    exact ⟨h ▸ hn, h ▸ List.nil_prefix⟩
  | found rest ih =>
    rw [remove_append_self] at h
    obtain ⟨hlt, -⟩ := ih h
    exact ⟨hlt, (replicate_prefix_replicate hlt.le).trans (List.prefix_append _ rest)⟩
  | other d rest hstarts ih =>
    rw [remove_cons_of_not_prefix_cons hstarts] at h
    have hfront : List.replicate m c <+: d :: rest := by
      cases m with
      | zero => exact List.nil_prefix
      | succ m =>
        rw [List.replicate_succ, List.cons_prefix_cons] at h ⊢
        exact ⟨h.1, (ih h.2).2⟩
    refine ⟨?_, hfront⟩
    by_contra hle
    exact hstarts ((replicate_prefix_replicate (Nat.le_of_not_lt hle)).trans hfront)

/-- Removal of a run of one character leaves shorter runs of it only, and none that is new. -/
theorem infix_of_infix_remove_replicate (hn : 0 < n) {m : Nat} (hm : 0 < m)
    (h : List.replicate m c <:+: remove (List.replicate n c) text) :
    m < n ∧ List.replicate m c <:+: text := by
  have hne : List.replicate n c ≠ [] := by simpa using hn.ne'
  induction text using remove_induction hne with
  | nil =>
    rw [remove_empty_text, List.infix_nil, List.replicate_eq_nil_iff] at h
    exact absurd h hm.ne'
  | found rest ih =>
    rw [remove_append_self] at h
    obtain ⟨hlt, hrest⟩ := ih h
    exact ⟨hlt, hrest.trans (List.suffix_append _ rest).isInfix⟩
  | other d rest hstarts ih =>
    rw [remove_cons_of_not_prefix_cons hstarts, List.infix_cons_iff] at h
    rcases h with hfront | hrest
    · rw [← remove_cons_of_not_prefix_cons hstarts] at hfront
      obtain ⟨hlt, htext⟩ := replicate_prefix_of_remove hn hfront
      exact ⟨hlt, htext.isInfix⟩
    · obtain ⟨hlt, hwithin⟩ := ih hrest
      exact ⟨hlt, hwithin.trans (List.suffix_cons d rest).isInfix⟩

theorem replicate_not_infix_removeAll {m : Nat} (hm : 0 < m)
    (hruns : ∀ part ∈ parts, ∃ n, 0 < n ∧ part = List.replicate n c)
    (h : ¬ List.replicate m c <:+: text) : ¬ List.replicate m c <:+: removeAll parts text := by
  induction parts generalizing text with
  | nil => exact h
  | cons part parts ih =>
    obtain ⟨⟨n, hn, rfl⟩, hlater⟩ := List.forall_mem_cons.1 hruns
    exact ih hlater fun hremove => h (infix_of_infix_remove_replicate hn hm hremove).2

/-- A run of one character is gone for good if runs of it are all that is removed afterwards. -/
theorem replicate_not_infix_removeAll_of_runs {before after : List (List Char)} (hn : 0 < n)
    (hruns : ∀ part ∈ after, ∃ m, 0 < m ∧ part = List.replicate m c) :
    ¬ List.replicate n c <:+: removeAll (before ++ List.replicate n c :: after) text := by
  rw [removeAll_append, removeAll_cons]
  exact replicate_not_infix_removeAll hn hruns fun h =>
    Nat.lt_irrefl n (infix_of_infix_remove_replicate hn hn h).1

/-- A single character is gone for good, whatever is removed afterwards. -/
theorem notMem_removeAll_of_singleton (h : [c] ∈ parts) : c ∉ removeAll parts text := by
  obtain ⟨before, after, rfl⟩ := List.append_of_mem h
  rw [removeAll_append, removeAll_cons]
  intro hmem
  have hremove := (removeAll_sublist after _).subset hmem
  have hwithin : List.replicate 1 c <:+: remove (List.replicate 1 c) (removeAll before text) :=
    (List.singleton_infix_iff c _).2 hremove
  exact Nat.lt_irrefl 1 (infix_of_infix_remove_replicate Nat.one_pos Nat.one_pos hwithin).1

theorem eq_of_prefix_cons (h : text <+: c :: text) : ∀ d ∈ text, d = c := by
  induction text generalizing c with
  | nil => exact fun d hd => absurd hd List.not_mem_nil
  | cons d rest ih =>
    obtain ⟨rfl, hrest⟩ := List.cons_prefix_cons.1 h
    exact List.forall_mem_cons.2 ⟨rfl, ih hrest⟩

/--
A part with two different characters comes back: an occurrence that stands behind the first
character of another one lets that one close up when it is dropped.
-/
theorem remove_nested {first last : Char} (hfirst : first ≠ c) (htext : ∃ d ∈ text, d ≠ c) :
    remove (c :: text) (first :: c :: ((c :: text) ++ (text ++ [last]))) =
      first :: ((c :: text) ++ [last]) := by
  -- neither the place before the nested occurrence nor what is behind it matches the part
  have hshift : ¬ text <+: c :: text := by
    intro h
    obtain ⟨d, hd, hne⟩ := htext
    exact hne (eq_of_prefix_cons h d hd)
  rw [remove_cons_of_not_prefix_cons fun h => hfirst (List.cons_prefix_cons.1 h).1.symm,
    remove_cons_of_not_prefix_cons, remove_append_self,
    (remove_eq_self_iff (List.cons_ne_nil c text)).2, List.cons_append]
  · intro h
    have hsame := h.eq_of_length (by simp)
    exact hshift ⟨[last], hsame.symm⟩
  · intro h
    obtain ⟨-, h⟩ := List.cons_prefix_cons.1 h
    exact hshift (List.prefix_of_prefix_length_le h (List.prefix_append _ _) (by simp))

/-! ## What is kept -/

variable {α : Type} {marked kept mid : List α}

/-- What is kept of elements that are told apart keeps together what stood together. -/
theorem infix_of_sublist (hnodup : marked.Nodup) (hkept : kept.Sublist marked)
    (hwithin : mid <:+: marked) (hsubset : mid ⊆ kept) : mid <:+: kept := by
  obtain ⟨front, back, rfl⟩ := hwithin
  obtain ⟨keptFront, keptBack, rfl, hfront, hback⟩ := List.sublist_append_iff.1 hkept
  obtain ⟨keptFront, keptMid, rfl, hfront, hmid⟩ := List.sublist_append_iff.1 hfront
  rw [List.nodup_append'] at hnodup
  obtain ⟨hnodup, -, hapart⟩ := hnodup
  rw [List.nodup_append'] at hnodup
  have hsame : mid ⊆ keptMid := by
    intro x hx
    rcases List.mem_append.1 (hsubset hx) with hfound | hfound
    · rcases List.mem_append.1 hfound with hfound | hfound
      · exact absurd hx (hnodup.2.2 (hfront.subset hfound))
      · exact hfound
    · exact absurd (hback.subset hfound) (hapart (List.mem_append_right _ hx))
  rw [hmid.eq_of_length_le (List.subperm_of_subset hnodup.2.1 hsame).length_le]
  exact ⟨keptFront, keptBack, rfl⟩

/-- Of characters that are told apart, removal keeps some and breaks every occurrence. -/
theorem exists_kept_remove (character : α → Char) (part : List Char) (hnodup : marked.Nodup) :
    ∃ kept, kept.Sublist marked ∧ kept.map character = remove part (marked.map character) ∧
      ∀ mid, mid <:+: marked → mid.map character = part → mid ≠ [] → ¬ mid ⊆ kept := by
  by_cases hne : part = []
  · refine ⟨marked, .refl marked, by rw [hne, remove_empty_part], fun mid _ hmid h => ?_⟩
    exact absurd (List.map_eq_nil_iff.1 (hmid.trans hne)) h
  induction htext : marked.map character using remove_induction hne generalizing marked with
  | nil =>
    obtain rfl := List.map_eq_nil_iff.1 htext
    exact ⟨[], .refl [], by simp, fun mid hwithin _ h => absurd (List.infix_nil.1 hwithin) h⟩
  | found rest ih =>
    obtain ⟨front, later, rfl, -, hrest⟩ := List.map_eq_append_iff.1 htext
    obtain ⟨kept, hkept, hremove, hbroken⟩ := ih (List.nodup_append'.1 hnodup).2.1 hrest
    have hlater := List.sublist_append_right front later
    refine ⟨kept, hkept.trans hlater, by rw [hremove, remove_append_self],
      fun mid hwithin hmid h hsubset => ?_⟩
    -- an occurrence that overlaps the dropped one is not kept as a whole, so this lies behind it
    have hbehind := infix_of_sublist hnodup hlater hwithin fun _ hx => hkept.subset (hsubset hx)
    exact hbroken mid hbehind hmid h hsubset
  | other c rest hstarts ih =>
    obtain ⟨first, later, rfl, rfl, hrest⟩ := List.map_eq_cons_iff.1 htext
    rw [List.nodup_cons] at hnodup
    obtain ⟨kept, hkept, hremove, hbroken⟩ := ih hnodup.2 hrest
    refine ⟨first :: kept, hkept.cons_cons first, ?_, fun mid hwithin hmid h hsubset => ?_⟩
    · rw [List.map_cons, hremove, remove_cons_of_not_prefix_cons hstarts]
    · rcases List.infix_cons_iff.1 hwithin with hfront | hbehind
      · have hfound := hfront.map character
        rw [hmid, htext] at hfound
        exact hstarts hfound
      · refine hbroken mid hbehind hmid h fun x hx => ?_
        rcases List.mem_cons.1 (hsubset hx) with rfl | hx
        · exact absurd (hbehind.subset hx) hnodup.1
        · exact hx

theorem exists_kept_removeAll (character : α → Char) (parts : List (List Char))
    (hnodup : marked.Nodup) :
    ∃ kept, kept.Sublist marked ∧ kept.map character = removeAll parts (marked.map character) ∧
      ∀ mid, mid <:+: marked → mid.map character ∈ parts → mid ≠ [] → ¬ mid ⊆ kept := by
  induction parts generalizing marked with
  | nil => exact ⟨marked, .refl marked, rfl, fun _ _ hmem => absurd hmem List.not_mem_nil⟩
  | cons part parts ih =>
    obtain ⟨once, honce, hremove, hfirst⟩ := exists_kept_remove character part hnodup
    obtain ⟨kept, hkept, hpasses, hlater⟩ := ih (honce.nodup hnodup)
    refine ⟨kept, hkept.trans honce, by rw [hpasses, hremove, removeAll_cons],
      fun mid hwithin hmem hne hsubset => ?_⟩
    have honceSubset : mid ⊆ once := fun _ hx => hkept.subset (hsubset hx)
    rcases List.mem_cons.1 hmem with hpart | hmem
    · exact hfirst mid hwithin hpart hne honceSubset
    · exact hlater mid (infix_of_sublist hnodup honce hwithin honceSubset) hmem hne hsubset

/--
What is left of a text is some of its characters, and of every occurrence of a part in the text at
least one is missing.
-/
def Breaks (parts : List (List Char)) (text left : List Char) : Prop :=
  ∃ kept : List (Char × Nat), kept.Sublist text.zipIdx ∧ kept.map Prod.fst = left ∧
    ∀ part ∈ parts, part ≠ [] → ∀ front back, text = front ++ part ++ back →
      ∃ place, front.length ≤ place ∧ place < front.length + part.length ∧
        place ∉ kept.map Prod.snd

theorem breaks_removeAll (parts : List (List Char)) (text : List Char) :
    Breaks parts text (removeAll parts text) := by
  have hplaces := List.nodup_zipIdx_map_snd text
  obtain ⟨kept, hkept, hremove, hbroken⟩ := exists_kept_removeAll Prod.fst parts hplaces.of_map
  rw [List.zipIdx_map_fst] at hremove
  refine ⟨kept, hkept, hremove, fun part hmem hne front back htext => ?_⟩
  have hwithin : part.zipIdx front.length <:+: text.zipIdx := by
    rw [htext, List.zipIdx_append, List.zipIdx_append, Nat.zero_add]
    exact List.infix_append ..
  have hlost := hbroken _ hwithin (by rwa [List.zipIdx_map_fst]) (by simpa using hne)
  obtain ⟨⟨c, place⟩, hplace, hout⟩ : ∃ entry ∈ part.zipIdx front.length, entry ∉ kept := by
    simpa [List.subset_def] using hlost
  refine ⟨place, List.le_snd_of_mem_zipIdx hplace, List.snd_lt_add_of_mem_zipIdx hplace,
    fun hin => hout ?_⟩
  obtain ⟨⟨d, _⟩, hd, rfl⟩ := List.mem_map.1 hin
  rwa [List.inj_on_of_nodup_map hplaces (hwithin.subset hplace) (hkept.subset hd) rfl]

end SqlScript.Text
