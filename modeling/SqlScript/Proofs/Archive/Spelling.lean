import SqlScript.Proofs.Archive.Names

/-!
# Positions in names

A file name stands for a position if and only if it is a number with the extension behind it
(`ordinalOfName?_eq_some_iff`). The number may be written with a plus sign and with zeros before its
digits, and in no other way (`ordinalOfName?_eq_some_iff_spelling`), so that every position is read
from the name it gives.
-/

namespace SqlScript

namespace Path

theorem splitName_append {stem ext : String} (hstem : stem ≠ "") (hext : '.' ∉ ext.toList) :
    splitName (stem ++ "." ++ ext) = (stem, some ext) := by
  obtain ⟨c, rest, hrest⟩ : ∃ c rest, stem.toList.reverse = c :: rest :=
    List.exists_cons_of_ne_nil (by simpa using hstem)
  have hback : (c :: rest).reverse = stem.toList := by rw [← hrest, List.reverse_reverse]
  have htext : (stem ++ "." ++ ext).toList = stem.toList ++ '.' :: ext.toList := by
    simp [String.toList_append]
  have hreversed : (stem.toList ++ '.' :: ext.toList).reverse = ext.toList.reverse ++ '.' :: c :: rest := by
    simp [hrest]
  have htake := Text.takeWhile_reverse_append stem.toList hext
  rw [hreversed] at htake
  unfold splitName
  simp only [htext, hreversed, htake, List.drop_left, hback, List.reverse_reverse, String.ofList_toList]

theorem eq_of_splitName {name stem ext : String} (h : splitName name = (stem, some ext)) :
    name = stem ++ "." ++ ext := by
  have hsplit : name.toList.reverse.takeWhile (· ≠ '.') ++ name.toList.reverse.dropWhile (· ≠ '.') =
      name.toList.reverse := List.takeWhile_append_dropWhile
  have hdrop : name.toList.reverse.drop (name.toList.reverse.takeWhile (· ≠ '.')).length =
      name.toList.reverse.dropWhile (· ≠ '.') :=
    (congrArg (List.drop _) hsplit.symm).trans List.drop_left
  have hhead := List.head?_dropWhile_not (· ≠ '.') name.toList.reverse
  unfold splitName at h
  simp only [hdrop] at h
  rcases hfound : name.toList.reverse.dropWhile (· ≠ '.') with _ | ⟨d, _ | ⟨c, rest⟩⟩
  · simp only [hfound] at h
    cases h
  · simp only [hfound] at h
    cases h
  · rw [hfound] at hsplit hhead
    obtain rfl : d = '.' := by simpa using hhead
    simp only [hfound, Prod.mk.injEq, Option.some.injEq] at h
    generalize name.toList.reverse.takeWhile (· ≠ '.') = last at h hsplit
    rw [← String.toList_inj, ← h.1, ← h.2, ← List.reverse_inj, ← hsplit]
    simp [String.toList_append]

end Path

namespace Archive

theorem ordinalOfStem?_empty : ordinalOfStem? "" = none := by decide

theorem ordinalOfName?_append (stem : String) : ordinalOfName? (stem ++ ".sql") = ordinalOfStem? stem := by
  by_cases hstem : stem = ""
  · rw [hstem, ordinalOfStem?_empty]
    decide
  · have hname : stem ++ ".sql" = stem ++ "." ++ extension := by
      rw [String.append_assoc]
      rfl
    rw [hname, ordinalOfName?, Path.splitName_append hstem (by decide)]
    exact if_pos rfl

/-- A name stands for a position if it is a number with the extension behind it, and only then. -/
theorem ordinalOfName?_eq_some_iff {name : String} {n : Nat} :
    ordinalOfName? name = some n ↔ ∃ stem, name = stem ++ ".sql" ∧ ordinalOfStem? stem = some n := by
  constructor
  · intro h
    unfold ordinalOfName? at h
    split at h
    · next stem ext hsplit =>
      rw [Option.ite_none_right_eq_some] at h
      obtain ⟨rfl, hstem⟩ := h
      refine ⟨stem, ?_, hstem⟩
      rw [Path.eq_of_splitName hsplit, String.append_assoc]
      rfl
    · cases h
  · rintro ⟨stem, rfl, hstem⟩
    rw [ordinalOfName?_append, hstem]

/-! ## Spellings -/

/-- Digits with or without a plus sign. -/
def signed (plus : Bool) (digits : List Char) : List Char := if plus then '+' :: digits else digits

/-- The text of a number with zeros before its digits, with or without a plus sign. -/
def spelling (plus : Bool) (zeros n : Nat) : String :=
  String.ofList (signed plus (List.replicate zeros '0' ++ Nat.toDigits 10 n))

theorem spelling_false_zero (n : Nat) : spelling false 0 n = toString n := by
  rw [← String.toList_inj, spelling, String.toList_ofList, Text.toList_toString]
  rfl

theorem exists_signed (stem : String) :
    ∃ plus digits, stem.toList = signed plus digits ∧ ordinalOfStem? stem =
      if digits.isEmpty ∨ ¬ digits.all Char.isDigit then none
      else if Text.digitsValue digits ≤ maxOrdinal then some (Text.digitsValue digits) else none := by
  unfold ordinalOfStem?
  dsimp only
  split
  · next rest hrest => exact ⟨true, rest, hrest, rfl⟩
  · exact ⟨false, _, rfl, rfl⟩

theorem exists_digits_of_ordinalOfStem? {stem : String} {n : Nat} (h : ordinalOfStem? stem = some n) :
    ∃ plus digits, stem.toList = signed plus digits ∧ digits ≠ [] ∧
      (∀ c ∈ digits, c.isDigit = true) ∧ Text.digitsValue digits = n ∧ n ≤ maxOrdinal := by
  obtain ⟨plus, digits, hstem, hread⟩ := exists_signed stem
  rw [h] at hread
  split_ifs at hread with hbad hle
  rw [not_or, Decidable.not_not, List.isEmpty_iff, List.all_eq_true] at hbad
  cases hread
  exact ⟨plus, digits, hstem, hbad.1, hbad.2, rfl, hle⟩

theorem ordinalOfStem?_of_digits {stem : String} {plus : Bool} {digits : List Char}
    (h : stem.toList = signed plus digits) (hne : digits ≠ [])
    (hdigits : ∀ c ∈ digits, c.isDigit = true) (hle : Text.digitsValue digits ≤ maxOrdinal) :
    ordinalOfStem? stem = some (Text.digitsValue digits) := by
  obtain ⟨c, rest, rfl⟩ := List.exists_cons_of_ne_nil hne
  have hplus : c ≠ '+' := by
    rintro rfl
    exact absurd (hdigits '+' List.mem_cons_self) (by decide)
  have hall := List.all_eq_true.2 hdigits
  unfold ordinalOfStem?
  rw [h]
  cases plus with
  | true => simp [signed, hall, hle]
  | false => simp [signed, hplus, hall, hle]

/-- A stem stands for a number if it is a spelling of it, and only then. -/
theorem ordinalOfStem?_eq_some_iff {stem : String} {n : Nat} :
    ordinalOfStem? stem = some n ↔ n ≤ maxOrdinal ∧ ∃ plus zeros, stem = spelling plus zeros n := by
  constructor
  · intro h
    obtain ⟨plus, digits, hstem, hne, hdigits, rfl, hle⟩ := exists_digits_of_ordinalOfStem? h
    obtain ⟨zeros, hzeros⟩ := Text.exists_zeros_append hne hdigits
    refine ⟨hle, plus, zeros, ?_⟩
    rw [← String.toList_inj, spelling, String.toList_ofList, ← hzeros, hstem]
  · rintro ⟨hle, plus, zeros, rfl⟩
    have hvalue : Text.digitsValue (List.replicate zeros '0' ++ Nat.toDigits 10 n) = n := by
      rw [Text.digitsValue_zeros_append, Text.digitsValue_toDigits]
    have hdigits : ∀ c ∈ List.replicate zeros '0' ++ Nat.toDigits 10 n, c.isDigit = true := by
      refine List.forall_mem_append.2 ⟨fun c hc => ?_, fun c hc => ?_⟩
      · rw [List.eq_of_mem_replicate hc]
        rfl
      · exact Nat.isDigit_of_mem_toDigits (by decide) (by decide) hc
    rw [spelling, ordinalOfStem?_of_digits String.toList_ofList
      (List.append_ne_nil_of_right_ne_nil _ Nat.toDigits_ne_nil) hdigits
      (Nat.le_trans (Nat.le_of_eq hvalue) hle), hvalue]

theorem ordinalOfName?_eq_some_iff_spelling {name : String} {n : Nat} :
    ordinalOfName? name = some n ↔
      n ≤ maxOrdinal ∧ ∃ plus zeros, name = spelling plus zeros n ++ ".sql" := by
  simp only [ordinalOfName?_eq_some_iff, ordinalOfStem?_eq_some_iff]
  constructor
  · rintro ⟨_, rfl, hle, plus, zeros, rfl⟩
    exact ⟨hle, plus, zeros, rfl⟩
  · rintro ⟨hle, plus, zeros, rfl⟩
    exact ⟨_, rfl, hle, plus, zeros, rfl⟩

theorem slash_notMem_of_ordinalOfStem? {stem : String} {n : Nat} (h : ordinalOfStem? stem = some n) :
    '/' ∉ stem.toList := by
  obtain ⟨plus, digits, hstem, _, hdigits, _⟩ := exists_digits_of_ordinalOfStem? h
  have hslash : '/' ∉ digits := fun hmem => absurd (hdigits '/' hmem) (by decide)
  rw [hstem]
  cases plus with
  | true => exact List.not_mem_cons_of_ne_of_not_mem (by decide) hslash
  | false => exact hslash

/-- Every position is read from its digits. -/
theorem ordinalOfStem?_toString {n : Nat} (h : n ≤ maxOrdinal) :
    ordinalOfStem? (toString n) = some n :=
  ordinalOfStem?_eq_some_iff.2 ⟨h, false, 0, (spelling_false_zero n).symm⟩

theorem ordinalOfName?_fileName {n : Nat} (h : n ≤ maxOrdinal) :
    ordinalOfName? (fileName n) = some n := by
  refine ordinalOfName?_eq_some_iff.2 ⟨toString n, ?_, ordinalOfStem?_toString h⟩
  rw [fileName, String.append_assoc]
  rfl

theorem isName_of_ordinalOfName? {name : String} {n : Nat} (h : ordinalOfName? name = some n) :
    Path.IsName name := by
  obtain ⟨stem, rfl, hstem⟩ := ordinalOfName?_eq_some_iff.1 h
  have hlength : 4 ≤ (stem ++ ".sql").toList.length := by simp
  have hshort {name : String} (h : name.toList.length < 4) : stem ++ ".sql" ≠ name := by
    rintro rfl
    omega
  refine ⟨hshort (by decide), hshort (by decide), hshort (by decide), ?_⟩
  rw [String.toList_append, List.mem_append, not_or]
  exact ⟨slash_notMem_of_ordinalOfStem? hstem, by decide⟩

end Archive

end SqlScript
