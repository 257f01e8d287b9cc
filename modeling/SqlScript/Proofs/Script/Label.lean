import SqlScript.Proofs.Files.Join
import SqlScript.Proofs.Text.Decoding
import SqlScript.Script.Label

/-!
# Labels of script files

The label of a file has at least one character, and no more characters than the file's name has
bytes. Where the name is text, the label that a path gives is the label of its bytes
(`labelOf_join`).
-/

namespace SqlScript

namespace Script

/-! ## Stems -/

section Stem

variable {α β : Type} [DecidableEq α] [DecidableEq β] {dot : α} {name ext : List α}

theorem stemAt_of_notMem (h : dot ∉ name) : stemAt dot name = name := by
  unfold stemAt
  simp only [Text.takeWhile_reverse_of_notMem h, List.drop_length]

theorem stemAt_append (stem : List α) (h : dot ∉ ext) :
    stemAt dot (stem ++ dot :: ext) = if stem = [] then dot :: ext else stem := by
  have htake := Text.takeWhile_reverse_append stem h
  have hreversed : (stem ++ dot :: ext).reverse = ext.reverse ++ dot :: stem.reverse := by simp
  unfold stemAt
  simp only [htake]
  rw [hreversed, List.drop_left]
  cases hback : stem.reverse with
  | nil =>
      rw [List.reverse_eq_nil_iff] at hback
      rw [if_pos hback, hback, List.nil_append]
  | cons c rest =>
      have hne : stem ≠ [] := by
        rintro rfl
        cases hback
      rw [if_neg hne]
      dsimp only
      rw [← hback, List.reverse_reverse]

/-- A name has no dot, or it has a last one. -/
theorem exists_last_dot (dot : α) (name : List α) :
    dot ∉ name ∨ ∃ stem ext, dot ∉ ext ∧ name = stem ++ dot :: ext := by
  by_cases hmem : dot ∈ name
  · obtain ⟨ext, stem, hreversed, hext⟩ := List.eq_append_cons_of_mem (List.mem_reverse.2 hmem)
    refine .inr ⟨stem.reverse, ext.reverse, by simpa using hext, ?_⟩
    rw [← List.reverse_reverse name, hreversed]
    simp
  · exact .inl hmem

theorem stemAt_sublist (dot : α) (name : List α) : (stemAt dot name).Sublist name := by
  obtain h | ⟨stem, ext, hext, rfl⟩ := exists_last_dot dot name
  · simp [stemAt_of_notMem h]
  · rw [stemAt_append stem hext]
    split
    · exact List.sublist_append_right ..
    · exact List.sublist_append_left ..

theorem stemAt_ne_nil (h : name ≠ []) : stemAt dot name ≠ [] := by
  obtain hnone | ⟨stem, ext, hext, rfl⟩ := exists_last_dot dot name
  · rwa [stemAt_of_notMem hnone]
  · rw [stemAt_append stem hext]
    split
    · exact List.cons_ne_nil _ _
    · assumption

/-- A code in which the dot has one place, and stands nowhere else, keeps the stem. -/
theorem stemAt_flatMap {code : α → List β} {point : β} (hdot : code dot = [point])
    (hpoint : ∀ c, point ∈ code c → c = dot) (hcode : ∀ c, code c ≠ []) (name : List α) :
    stemAt point (name.flatMap code) = (stemAt dot name).flatMap code := by
  have hnone {cs : List α} (h : dot ∉ cs) : point ∉ cs.flatMap code := by
    intro hmem
    obtain ⟨c, hc, hin⟩ := List.mem_flatMap.1 hmem
    exact h (hpoint c hin ▸ hc)
  obtain h | ⟨stem, ext, hext, rfl⟩ := exists_last_dot dot name
  · rw [stemAt_of_notMem h, stemAt_of_notMem (hnone h)]
  · have hempty : stem.flatMap code = [] ↔ stem = [] := by
      cases stem with
      | nil => simp
      | cons c rest => simp [hcode c]
    rw [List.flatMap_append, List.flatMap_cons, hdot, List.singleton_append,
      stemAt_append _ (hnone hext), stemAt_append _ hext]
    simp only [hempty]
    split
    · rw [List.flatMap_cons, hdot, List.singleton_append]
    · rfl

end Stem

/-! ## Labels -/

theorem labelOfName_ne_empty {name : List UInt8} (h : name ≠ []) : labelOfName name ≠ "" := by
  intro hempty
  have hlist := congrArg String.toList hempty
  rw [labelOfName, String.toList_ofList] at hlist
  exact Text.decode_ne_nil (stemAt_ne_nil h) hlist

theorem length_labelOfName_le (name : List UInt8) : (labelOfName name).length ≤ name.length := by
  rw [labelOfName, String.length_ofList]
  exact Nat.le_trans (Text.length_decode_le _) (stemAt_sublist _ name).length_le

theorem splitName_fst (name : String) :
    (Path.splitName name).1 = String.ofList (stemAt '.' name.toList) := by
  unfold Path.splitName stemAt
  dsimp only
  split
  · next hback => rw [hback]
  · next hback =>
    split
    · next hsame => exact absurd hsame (hback _ _ _)
    · rw [String.ofList_toList]

theorem fileName?_join (directory : Path) {name : String} (h : Path.IsName name) :
    (directory.join name).fileName? = some name := by
  have hlast : (directory.join name).components.names.getLast? = some name := by
    have hnamed : ((directory.lead ++ [name]).filter fun piece => piece ≠ "" ∧ piece ≠ ".").getLast? =
        some name := by
      simp [List.filter_append, h.ne_empty, h.ne_dot]
    unfold Path.components
    rw [Path.pieces_join directory h]
    split
    · rw [List.getLast?_cons, hnamed]
      rfl
    · exact hnamed
  rw [Path.fileName?, hlast]
  simp [h.ne_dot, h.ne_dotDot]

/-! ## Names that are text -/

theorem IsFileName.isName {name : String} (h : IsFileName name.toUTF8.data.toList) :
    Path.IsName name := by
  refine ⟨?_, ?_, ?_, fun hslash => ?_⟩
  · rintro rfl
    exact h.ne_nil (by decide)
  · rintro rfl
    exact h.ne_dot (by decide)
  · rintro rfl
    exact h.ne_dotDot (by decide)
  · apply h.slash
    rw [Text.toUTF8_eq_flatMap, List.mem_flatMap]
    exact ⟨'/', hslash, by decide⟩

/-- The bytes of a name that is text give the label that its path gives. -/
theorem labelOf_join (directory : Path) {name : String} (h : Path.IsName name) :
    labelOf (directory.join name) = labelOfName name.toUTF8.data.toList := by
  have hdot : String.utf8EncodeChar '.' = [0x2E] := by decide
  rw [labelOf, Path.stem?, fileName?_join directory h, Option.map_some, Option.getD_some,
    splitName_fst, labelOfName, Text.toUTF8_eq_flatMap,
    stemAt_flatMap hdot (fun c => Text.eq_of_mem_utf8EncodeChar hdot)
      (fun c => String.utf8EncodeChar_ne_nil), Text.decode_encoded]

end Script

end SqlScript
