import SqlScript.Archive
import SqlScript.Proofs.Files.Join
import SqlScript.Proofs.Text.Digits

/-!
# Names in archives

Every name that an archive gives to a directory or a file stands for an entry of its own: whatever
the label and the moment, no slash is in it, and other numbers give other names.
-/

namespace SqlScript

theorem Text.notMem_toString {n : Nat} {c : Char} (hc : c.isDigit = false) :
    c ∉ (toString n).toList := by
  intro hmem
  rw [isDigit_of_mem_toString hmem] at hc
  cases hc

/-! ## Characters of names -/

namespace Archive

/-- A character that may stand in the name of an archive directory. -/
def isNameChar (c : Char) : Bool := isLabelChar c || c == '+'

def IsNameText (text : String) : Prop := ∀ c ∈ text.toList, isNameChar c = true

instance (text : String) : Decidable (IsNameText text) :=
  List.decidableBAll (fun c => isNameChar c = true) text.toList

@[simp] theorem isNameText_append {first second : String} :
    IsNameText (first ++ second) ↔ IsNameText first ∧ IsNameText second := by
  simp only [IsNameText, String.toList_append, List.forall_mem_append]

theorem isNameText_toString (n : Nat) : IsNameText (toString n) := by
  intro c hmem
  simp [isNameChar, isLabelChar, Char.isAlphanum, Text.isDigit_of_mem_toString hmem]

theorem isNameText_dash : IsNameText "-" := by decide

theorem isNameText_line : IsNameText "_" := by decide

end Archive

/-! ## Moments -/

namespace Timestamp

open Archive

theorem isNameText_padded (width n : Nat) : IsNameText (padded width n) := by
  refine isNameText_append.2 ⟨fun c hmem => ?_, isNameText_toString n⟩
  rw [String.toList_ofList] at hmem
  rw [List.eq_of_mem_replicate hmem]
  decide

theorem isNameText_yearText (year : Int) : IsNameText (yearText year) := by
  have hdigits := isNameText_padded 4 year.natAbs
  have hplus : IsNameText "+" := by decide
  unfold yearText
  dsimp only
  split
  · exact isNameText_append.2 ⟨isNameText_dash, hdigits⟩
  · split
    · exact isNameText_append.2 ⟨hplus, hdigits⟩
    · exact hdigits

theorem isNameText_text (t : Timestamp) : IsNameText t.text := by
  simp [text, isNameText_yearText, isNameText_padded, isNameText_dash, isNameText_line]

end Timestamp

namespace Archive

/-! ## Directories -/

theorem isNameText_cleanLabel (label : String) : IsNameText (cleanLabel label) := by
  unfold cleanLabel
  split
  · decide
  · intro c hmem
    rw [String.toList_ofList, List.mem_map] at hmem
    obtain ⟨d, -, rfl⟩ := hmem
    split
    · next hkept => rw [isNameChar, hkept, Bool.true_or]
    · decide

/-- A label of characters that a label may carry stays as it is. -/
theorem cleanLabel_eq_self {label : String} (hne : label ≠ "")
    (h : ∀ c ∈ label.toList, isLabelChar c = true) : cleanLabel label = label := by
  have hkept : label.toList.map (fun c => if isLabelChar c then c else '_') = label.toList.map id :=
    List.map_congr_left fun c hmem => if_pos (h c hmem)
  rw [cleanLabel, if_neg (by simpa using hne), hkept, List.map_id, String.ofList_toList]

theorem isNameText_numberedName (label : String) (moment : Timestamp) (suffix : Nat) :
    IsNameText (numberedName (baseName label moment) suffix) := by
  have hbase : IsNameText (baseName label moment) := by
    simp [baseName, isNameText_cleanLabel, isNameText_line, Timestamp.isNameText_text]
  unfold numberedName
  split
  · exact hbase
  · exact isNameText_append.2
      ⟨isNameText_append.2 ⟨hbase, isNameText_dash⟩, isNameText_toString suffix⟩

theorem isName_numberedName (label : String) (moment : Timestamp) (suffix : Nat) :
    Path.IsName (numberedName (baseName label moment) suffix) := by
  have hline : '_' ∈ (numberedName (baseName label moment) suffix).toList := by
    unfold numberedName baseName
    split <;> simp
  -- None of the three names that stand for something else has a low line in it.
  have hne {name : String} (h : '_' ∉ name.toList) :
      numberedName (baseName label moment) suffix ≠ name := by
    rintro rfl
    exact h hline
  refine ⟨hne (by decide), hne (by decide), hne (by decide), fun hslash => ?_⟩
  exact absurd (isNameText_numberedName label moment suffix '/' hslash) (by decide)

theorem numberedName_inj {base : String} {m n : Nat} (h : numberedName base m = numberedName base n) :
    m = n := by
  have hlength := congrArg (fun name : String => name.toList.length) h
  unfold numberedName at h hlength
  split_ifs at h hlength with hm hn hn
  · rw [hm, hn]
  · simp at hlength
  · simp at hlength
  · exact Text.toString_inj ((String.append_right_inj _).1 h)

/-! ## Files -/

/-- The name of the file at a position of a batch. -/
def fileName (ordinal : Nat) : String := toString ordinal ++ "." ++ extension

theorem toList_fileName (ordinal : Nat) :
    (fileName ordinal).toList = (toString ordinal).toList ++ ['.', 's', 'q', 'l'] := by
  simp [fileName, extension, String.toList_append]

theorem isName_fileName (ordinal : Nat) : Path.IsName (fileName ordinal) := by
  have hlength : 4 ≤ (fileName ordinal).toList.length := by
    rw [toList_fileName, List.length_append]
    exact Nat.le_add_left ..
  have hshort {name : String} (h : name.toList.length < 4) : fileName ordinal ≠ name := by
    rintro rfl
    omega
  refine ⟨hshort (by decide), hshort (by decide), hshort (by decide), ?_⟩
  rw [toList_fileName, List.mem_append, not_or]
  exact ⟨Text.notMem_toString (by decide), by decide⟩

theorem fileName_inj {m n : Nat} (h : fileName m = fileName n) : m = n := by
  have hlists := congrArg String.toList h
  simp only [fileName, String.toList_append, List.append_cancel_right_eq] at hlists
  exact Text.toString_inj (String.toList_inj.1 hlists)

end Archive

end SqlScript
