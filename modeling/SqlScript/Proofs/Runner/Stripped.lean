import SqlScript.Proofs.Config.Faults
import SqlScript.Proofs.Runner.Prepared
import SqlScript.Proofs.Text.Removal

/-!
# What is left of patterns

Every occurrence of a pattern in a statement is broken up, but its rest and what stands around it
may make up a pattern once more, so that a second removal finds what the first one left
(`Script.prepare_strips`). Only a pattern that is a run of one character is removed from every text
for good (`stripText_free_iff`).
-/

namespace SqlScript

variable {script : Script} {config : Config} {patterns : List String} {s : Statement}

theorem toList_stripText (patterns : List String) (text : String) :
    (stripText patterns text).toList =
      Text.trim (Text.removeAll (patterns.map String.toList) text.toList) :=
  String.toList_ofList

theorem pattern_ne_empty (h : config.IsValid) {p : String} (hp : p ∈ config.stripPatterns) :
    p.toList ≠ [] := by
  intro hempty
  obtain rfl : p = "" := String.toList_eq_nil_iff.1 hempty
  exact Config.isValid_iff.1 h .emptyPattern hp

/-! ## Patterns that stay away -/

/-- Stripping changes a stripped text if and only if there is a pattern in it. -/
theorem stripText_eq_self_iff (hpatterns : ∀ p ∈ patterns, p.toList ≠ []) {text : String}
    (htext : Text.IsTrimmed text.toList) :
    stripText patterns text = text ↔ ∀ p ∈ patterns, ¬ p.toList <:+: text.toList := by
  have hremove : stripText patterns text = text ↔
      Text.removeAll (patterns.map String.toList) text.toList = text.toList := by
    rw [← String.toList_inj, toList_stripText]
    have hremoved := Text.removeAll_sublist (patterns.map String.toList) text.toList
    generalize Text.removeAll (patterns.map String.toList) text.toList = left at hremoved
    constructor
    · intro h
      -- a trim drops nothing from what is as long as the whole text was
      exact hremoved.eq_of_length_le (h ▸ (Text.trim_infix_self left).length_le)
    · intro h
      rw [h, Text.trim_eq_self htext]
  rw [hremove, Text.removeAll_eq_self_iff, List.forall_mem_map]
  exact forall₂_congr fun p hp => Text.remove_eq_self_iff (hpatterns p hp)

theorem notMem_stripText {c : Char} (h : String.singleton c ∈ patterns) (text : String) :
    c ∉ (stripText patterns text).toList := by
  rw [toList_stripText]
  refine fun hmem => Text.notMem_removeAll_of_singleton ?_ (Text.trim_subset _ hmem)
  exact List.mem_map.2 ⟨_, h, String.toList_singleton c⟩

/-- A run of one character is gone if nothing but runs of that character is removed after it. -/
theorem not_infix_stripText_of_run (before : List String) {after : List String} {p : String}
    {c : Char} (hne : ∀ q ∈ p :: after, q.toList ≠ [])
    (hrun : ∀ q ∈ p :: after, ∀ d ∈ q.toList, d = c) (text : String) :
    ¬ p.toList <:+: (stripText (before ++ p :: after) text).toList := by
  have hall (q : String) (hq : q ∈ p :: after) :
      0 < q.toList.length ∧ q.toList = List.replicate q.toList.length c :=
    ⟨List.length_pos_iff.2 (hne q hq), List.eq_replicate_of_mem (hrun q hq)⟩
  obtain ⟨hpos, hp⟩ := hall p List.mem_cons_self
  rw [toList_stripText, List.map_append, List.map_cons, hp]
  refine fun h => Text.replicate_not_infix_removeAll_of_runs hpos (fun part hpart => ?_)
    (h.trans (Text.trim_infix_self _))
  obtain ⟨q, hq, rfl⟩ := List.mem_map.1 hpart
  obtain ⟨hqpos, hq⟩ := hall q (List.mem_cons_of_mem p hq)
  exact ⟨_, hqpos, hq⟩

/-- A pattern is removed from every text for good if and only if all its characters are one. -/
theorem stripText_free_iff {p : String} (hne : p ≠ "") :
    (∀ text, ¬ p.toList <:+: (stripText [p] text).toList) ↔ ∃ c, ∀ d ∈ p.toList, d = c := by
  have hlist : p.toList ≠ [] := fun h => hne (String.toList_eq_nil_iff.1 h)
  constructor
  · intro hfree
    obtain ⟨c, tail, hp⟩ := List.exists_cons_of_ne_nil hlist
    refine ⟨c, ?_⟩
    by_contra hmixed
    have htail : ∃ d ∈ tail, d ≠ c := by simpa [hp] using hmixed
    -- characters at both ends that no trim removes hold the pattern that comes back in its place
    obtain ⟨first, hfirst, hblank⟩ : ∃ first, first ≠ c ∧ Text.isBlank first = false := by
      by_cases hc : c = 'x'
      · exact ⟨'y', by rw [hc]; decide, by decide⟩
      · exact ⟨'x', fun h => hc h.symm, by decide⟩
    have htrimmed : Text.IsTrimmed (first :: ((c :: tail) ++ ['z'])) := by
      refine ⟨by simpa using hblank, fun d hd => ?_⟩
      rw [← List.cons_append, List.getLast?_concat, Option.mem_some_iff] at hd
      rw [← hd]
      decide
    refine hfree (String.ofList (first :: c :: ((c :: tail) ++ (tail ++ ['z'])))) ?_
    rw [toList_stripText, String.toList_ofList, List.map_singleton, Text.removeAll_cons, hp,
      Text.remove_nested hfirst htail]
    exact (Text.trim_eq_self htrimmed).symm ▸ ⟨[first], ['z'], rfl⟩
  · rintro ⟨c, hrun⟩ text
    exact not_infix_stripText_of_run [] (by simpa using hlist) (by simpa using hrun) text

/-! ## Prepared statements -/

/--
What a pattern's removal reads is what the patterns before it left of a statement, and every
occurrence in it loses a character. What the removed characters leave behind may still make up a
pattern, and then the next removal changes the statement; it does so in no other case. No pattern
of one character is left, and no run of one character that only runs of it follow.
-/
theorem Script.prepare_strips (script : Script) (hvalid : config.IsValid) :
    ∀ s ∈ (script.prepare config).statements,
      ∃ t, (config.splitMode.divide script.text)[s.ordinal]? = some t ∧
        (∀ before after, config.stripPatterns = before ++ after →
          ∃ left, s.text.toList = Text.trim left ∧ Text.Breaks (after.map String.toList)
            (Text.removeAll (before.map String.toList) t.text.toList) left) ∧
        (stripText config.stripPatterns s.text = s.text ↔
          ∀ p ∈ config.stripPatterns, ¬ p.toList <:+: s.text.toList) ∧
        (∀ c, String.singleton c ∈ config.stripPatterns → c ∉ s.text.toList) ∧
        (∀ before p after c, config.stripPatterns = before ++ p :: after →
          (∀ q ∈ p :: after, ∀ d ∈ q.toList, d = c) → ¬ p.toList <:+: s.text.toList) := by
  intro s hs
  obtain ⟨-, htrimmed, t, ht, htext, -⟩ := getElem?_divide_of_mem_prepare hs
  have hne (p : String) (hp : p ∈ config.stripPatterns) : p.toList ≠ [] :=
    pattern_ne_empty hvalid hp
  refine ⟨t, ht, fun before after hpatterns => ?_, stripText_eq_self_iff hne htrimmed,
    fun c hc => ?_, fun before p after c hpatterns hrun => ?_⟩
  · refine ⟨_, ?_, Text.breaks_removeAll _ _⟩
    rw [htext, toList_stripText, hpatterns, List.map_append, Text.removeAll_append]
  · rw [htext]
    exact notMem_stripText hc t.text
  · rw [htext, hpatterns]
    exact not_infix_stripText_of_run before
      (fun q hq => hne q (hpatterns ▸ List.mem_append_right before hq)) hrun t.text

/-- A pattern closes up when another one within it is dropped, or brackets are. -/
theorem Script.prepare_strips_of_nested :
    let nested := { Config.default with stripPatterns := ["dbo."] }
    let quoted := { Config.default with stripPatterns := ["dbo.", "[", "]"] }
    let inner := Script.ofText "x" "SELECT * FROM dbdbo.o.t"
    let bracketed := Script.ofText "x" "SELECT * FROM [dbo].t"
    let s : Statement := ⟨0, "SELECT * FROM dbo.t"⟩
    nested.IsValid ∧ quoted.IsValid ∧ inner.prepare nested = ⟨[s], 1, 0, 0⟩ ∧
      bracketed.prepare quoted = ⟨[s], 1, 0, 0⟩ ∧ "dbo.".toList <:+: s.text.toList ∧
      stripText nested.stripPatterns s.text = "SELECT * FROM t" ∧
      stripText quoted.stripPatterns s.text ≠ s.text ∧ '[' ∉ s.text.toList := by
  intro nested quoted inner bracketed s
  have hnested : inner.prepare nested = ⟨[s], 1, 0, 0⟩ := by decide +kernel
  have hquoted : bracketed.prepare quoted = ⟨[s], 1, 0, 0⟩ := by decide +kernel
  have hwithin : "dbo.".toList <:+: s.text.toList := by decide +kernel
  obtain ⟨_, -, -, hagain, hsingle, -⟩ :=
    bracketed.prepare_strips (by decide : quoted.IsValid) s (by rw [hquoted]; simp)
  refine ⟨by decide, by decide, hnested, hquoted, hwithin, by decide +kernel, fun h => ?_,
    hsingle '[' (by decide)⟩
  exact hagain.1 h "dbo." (by decide) hwithin

end SqlScript
