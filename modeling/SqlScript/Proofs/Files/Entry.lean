import SqlScript.Proofs.Files.Made

/-!
# New entries

In a directory that is there and refuses no entry, a new directory can be made under every name that
is free, unless the name or its path is too long (`makeDirectory_of_accepts`).
-/

namespace SqlScript.FileTree

/-- A directory that is there and in which no change is refused. -/
structure Accepts (t : FileTree) (root : Path) : Prop where
  opens : t.Opens root
  refuses : ∀ name, t.refuses (t.placeOf root ++ [name]) = none

variable {t : FileTree} {root : Path} {name : String}

theorem Opens.nul_notMem (h : t.Opens root) : '\x00' ∉ root.text.toList := by
  by_cases hempty : root.isEmpty = true
  · rw [Path.text_eq_empty hempty]
    decide
  intro hnul
  have hlocate := h.locate hempty
  simp [FileTree.locate, base, hnul] at hlocate

theorem nul_notMem_join (h : t.Opens root) (hnul : '\x00' ∉ name.toList) :
    '\x00' ∉ (root.join name).text.toList := by
  have hroot := h.nul_notMem
  unfold Path.join
  split
  · simp [hroot, hnul]
  · simp [hroot, hnul]

theorem locate_of_opens (h : t.Opens root) (hname : Path.IsName name)
    (hnul : '\x00' ∉ name.toList) :
    t.locate (root.join name) =
      if name.utf8ByteSize ≤ nameLimit ∧ (root.join name).text.utf8ByteSize < pathLimit then
        .ok (t.placeOf root ++ [name])
      else .error .nameTooLong := by
  have hcontains : ¬ (root.join name).text.toList.contains '\x00' = true := fun hmem =>
    nul_notMem_join h hnul (List.contains_iff_mem.1 hmem)
  have hbase : t.base (root.join name) =
      if pathLimit ≤ (root.join name).text.utf8ByteSize then .error .nameTooLong
      else .ok (if (root.join name).isAbsolute then [] else t.workDirectory) := by
    rw [base, if_neg hcontains, if_neg (Path.isEmpty_join root hname)]
  by_cases hpath : pathLimit ≤ (root.join name).text.utf8ByteSize
  · rw [if_pos hpath] at hbase
    rw [locate, hbase, if_neg fun hfits => Nat.not_lt.2 hpath hfits.2]
  · rw [if_neg hpath] at hbase
    simp only [locate, hbase, Path.pieces_join root hname, walk_append, walk_lead h hname hbase, walk,
      step_name h.2 hname]
    by_cases hsize : name.utf8ByteSize ≤ nameLimit
    · rw [if_neg (Nat.not_lt.2 hsize), if_pos ⟨hsize, Nat.not_le.1 hpath⟩]
    · rw [if_pos (Nat.not_le.1 hsize), if_neg fun hfits => hsize hfits.1]

/-- What becomes of an attempt to make a directory in one that accepts entries. -/
theorem makeDirectory_of_accepts (h : t.Accepts root) (hname : Path.IsName name)
    (hnul : '\x00' ∉ name.toList) :
    t.makeDirectory (root.join name) =
      if name.utf8ByteSize ≤ nameLimit ∧ (root.join name).text.utf8ByteSize < pathLimit then
        if name ∈ t.namesAt (t.placeOf root) then .error .alreadyExists
        else .ok (t.put (t.placeOf root ++ [name]) .directory)
      else .error .nameTooLong := by
  rw [makeDirectory_join t root hname, locate_of_opens h.opens hname hnul]
  by_cases hfits : name.utf8ByteSize ≤ nameLimit ∧ (root.join name).text.utf8ByteSize < pathLimit
  · simp only [if_pos hfits, mem_namesAt_iff]
    cases hnode : t.node? (t.placeOf root ++ [name]) with
    | some node => simp
    | none => simp [h.refuses name]
  · simp only [if_neg hfits]

end SqlScript.FileTree
