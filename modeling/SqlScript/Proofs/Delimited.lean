import SqlScript.Proofs.Text.Pieces
import SqlScript.Proofs.Text.Trim

/-!
# Joined texts

Division at a delimiter gives texts that are clean: none is empty, has a blank at an end or holds
the delimiter. Clean texts that are joined by the delimiter are divided into themselves, and no
others are (`splitOn_intercalate_eq_number_iff`).
-/

namespace SqlScript

/-- A text such as a division at the delimiter gives. -/
structure Text.IsClean (delimiter : Char) (text : String) : Prop where
  ne_empty : text ≠ ""
  trimmed : IsTrimmed text.toList
  notMem : delimiter ∉ text.toList

variable {delimiter : Char} {script : String} {s : Statement} {texts : List String}

theorem map_text_splitOn (delimiter : Char) (script : String) :
    (splitOn delimiter script).map Statement.text =
      (((Text.pieces delimiter script.toList).map Text.trim).filter (! ·.isEmpty)).map
        String.ofList :=
  Statement.map_text_number _

theorem map_ordinal_splitOn (delimiter : Char) (script : String) :
    (splitOn delimiter script).map Statement.ordinal =
      List.range (splitOn delimiter script).length := by
  rw [splitOn, Statement.map_ordinal_number, Statement.length_number]

theorem number_map_text_splitOn (delimiter : Char) (script : String) :
    Statement.number ((splitOn delimiter script).map Statement.text) =
      splitOn delimiter script := by
  rw [map_text_splitOn, splitOn]

theorem isClean_of_mem_splitOn (h : s ∈ splitOn delimiter script) :
    Text.IsClean delimiter s.text := by
  have htext : s.text ∈ (splitOn delimiter script).map Statement.text := List.mem_map_of_mem h
  rw [map_text_splitOn] at htext
  obtain ⟨text, hmem, hs⟩ := List.mem_map.1 htext
  obtain ⟨htrim, hne⟩ := List.mem_filter.1 hmem
  obtain ⟨piece, hpiece, rfl⟩ := List.mem_map.1 htrim
  rw [← hs]
  refine ⟨?_, ?_, ?_⟩
  · simpa using hne
  · rw [String.toList_ofList]
    exact Text.isTrimmed_trim piece
  · rw [String.toList_ofList]
    exact fun hd => Text.notMem_of_mem_pieces hpiece (Text.trim_subset piece hd)

/-- Clean texts are joined without a loss. -/
theorem splitOn_intercalate (h : ∀ text ∈ texts, Text.IsClean delimiter text) :
    splitOn delimiter (delimiter.toString.intercalate texts) = Statement.number texts := by
  by_cases hne : texts = []
  · rw [hne]
    rfl
  have hpieces := Text.pieces_intercalate hne fun text hmem => (h text hmem).notMem
  have htrim : (texts.map String.toList).map Text.trim = texts.map String.toList := by
    rw [List.map_map]
    exact List.map_congr_left fun text hmem => Text.trim_eq_self (h text hmem).trimmed
  have hkept : (texts.map String.toList).filter (! ·.isEmpty) = texts.map String.toList := by
    rw [List.filter_eq_self]
    intro chars hchars
    obtain ⟨text, hmem, rfl⟩ := List.mem_map.1 hchars
    simpa using (h text hmem).ne_empty
  have htexts : (texts.map String.toList).map String.ofList = texts := by
    simp [Function.comp_def]
  rw [splitOn, hpieces, htrim, hkept, htexts]

theorem isClean_of_splitOn_intercalate
    (h : splitOn delimiter (delimiter.toString.intercalate texts) = Statement.number texts) :
    ∀ text ∈ texts, Text.IsClean delimiter text := by
  intro text hmem
  rw [← Statement.map_text_number texts, ← h] at hmem
  obtain ⟨s, hs, rfl⟩ := List.mem_map.1 hmem
  exact isClean_of_mem_splitOn hs

/--
Joining is the inverse of division at a delimiter, whatever character it is: the statements of a
script come back once they are joined, and some texts do if and only if they are clean.
-/
theorem splitOn_intercalate_eq_number_iff (delimiter : Char) :
    (∀ script : String,
      (splitOn delimiter script).map Statement.ordinal =
          List.range (splitOn delimiter script).length ∧
        (∀ s ∈ splitOn delimiter script, Text.IsClean delimiter s.text) ∧
        splitOn delimiter
            (delimiter.toString.intercalate ((splitOn delimiter script).map Statement.text)) =
          splitOn delimiter script) ∧
      ∀ texts : List String,
        splitOn delimiter (delimiter.toString.intercalate texts) = Statement.number texts ↔
          ∀ text ∈ texts, Text.IsClean delimiter text := by
  refine ⟨fun script => ⟨map_ordinal_splitOn delimiter script, fun s => isClean_of_mem_splitOn, ?_⟩,
    fun texts => ⟨isClean_of_splitOn_intercalate, splitOn_intercalate⟩⟩
  have hclean : ∀ text ∈ (splitOn delimiter script).map Statement.text,
      Text.IsClean delimiter text := by
    intro text hmem
    obtain ⟨s, hs, rfl⟩ := List.mem_map.1 hmem
    exact isClean_of_mem_splitOn hs
  rw [splitOn_intercalate hclean, number_map_text_splitOn]

/-- A delimiter that is a blank itself, and no texts at all. -/
theorem splitOn_intercalate_of_blank_delimiter :
    let script := "  SELECT 1\t  ;b "
    let texts := ["SELECT", "1", ";b"]
    splitOn ' ' script = Statement.number texts ∧
      (∀ s ∈ splitOn ' ' script, Text.IsClean ' ' s.text) ∧
      splitOn ' ' (" ".intercalate texts) = Statement.number texts ∧
      splitOn ' ' (" ".intercalate []) = Statement.number [] ∧
      ¬ splitOn ' ' (" ".intercalate ["SELECT", "1\t"]) = Statement.number ["SELECT", "1\t"] := by
  intro script texts
  have hsplit : splitOn ' ' script = Statement.number texts := by decide +kernel
  obtain ⟨hscripts, htexts⟩ := splitOn_intercalate_eq_number_iff ' '
  obtain ⟨_, hclean, hagain⟩ := hscripts script
  rw [hsplit, Statement.map_text_number] at hagain
  refine ⟨hsplit, hclean, hagain, (htexts []).2 (by simp), fun h => ?_⟩
  have htrimmed := ((htexts ["SELECT", "1\t"]).1 h "1\t" (by simp)).trimmed
  exact absurd (htrimmed.2 '\t' (by decide)) (by decide)

end SqlScript
