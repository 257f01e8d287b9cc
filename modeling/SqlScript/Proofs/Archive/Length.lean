import SqlScript.Proofs.Archive.Directory
import SqlScript.Proofs.Files.Entry
import SqlScript.Proofs.Script.Label
import Mathlib.Data.String.Basic

/-!
# Lengths of directory names

Nothing but its length can keep a name that is built from a label from being the name of an entry. So
in a root that accepts entries the failures of a script from a file get a directory unless the name
is too long (`makeBatchDirectory_by_length`). For a label of more than 235 characters it always is,
and a file name has room for such a label.
-/

namespace SqlScript

namespace Archive

theorem val_le_of_isAlphanum {c : Char} (h : c.isAlphanum = true) : c.val ≤ 127 := by
  rcases Bool.or_eq_true_iff.1 h with halpha | hdigit
  · rcases Bool.or_eq_true_iff.1 halpha with hupper | hlower
    · have hletter : c.val ≥ 'A'.val ∧ c.val ≤ 'Z'.val := of_decide_eq_true hupper
      exact UInt32.le_trans hletter.2 (by decide)
    · have hletter := of_decide_eq_true (Bool.and_eq_true_iff.1 hlower).2
      exact UInt32.le_trans hletter (by decide)
  · have hnine := of_decide_eq_true (Bool.and_eq_true_iff.1 hdigit).2
    exact UInt32.le_trans hnine (by decide)

theorem utf8Size_of_isNameChar {c : Char} (h : isNameChar c = true) : c.utf8Size = 1 := by
  rw [Char.utf8Size_eq_one_iff]
  simp only [isNameChar, isLabelChar, Bool.or_eq_true, beq_iff_eq] at h
  rcases h with (((h | rfl) | rfl) | rfl) | rfl
  · exact val_le_of_isAlphanum h
  all_goals decide

theorem IsNameText.utf8ByteSize_eq {text : String} (h : IsNameText text) :
    text.utf8ByteSize = text.length := by
  have hchars : ∀ cs : List Char, (∀ c ∈ cs, isNameChar c = true) →
      String.utf8Len cs = cs.length := by
    intro cs hcs
    induction cs with
    | nil => rfl
    | cons c cs ih =>
        obtain ⟨hc, hrest⟩ := List.forall_mem_cons.1 hcs
        rw [String.utf8Len_cons, ih hrest, utf8Size_of_isNameChar hc, List.length_cons]
  rw [← String.utf8Len_toList, hchars text.toList h, String.length_toList]

end Archive

/-! ## Moments -/

namespace Timestamp

/-- Every part of a date and time fits the width that it is given. -/
structure Fits (t : Timestamp) : Prop where
  year : 0 ≤ t.year ∧ t.year ≤ 9999
  month : t.month < 100
  day : t.day < 100
  hour : t.hour < 100
  minute : t.minute < 100
  second : t.second < 100

theorem length_padded (width n : Nat) :
    (padded width n).length = max width (toString n).length := by
  simp only [padded, String.length_append, String.length_ofList, List.length_replicate]
  omega

theorem length_padded_of_lt {width n : Nat} (hwidth : 0 < width) (h : n < 10 ^ width) :
    (padded width n).length = width := by
  rw [length_padded]
  exact Nat.max_eq_left ((Nat.length_repr_le_iff hwidth).2 h)

theorem le_length_padded (width n : Nat) : width ≤ (padded width n).length := by
  rw [length_padded]
  exact Nat.le_max_left ..

theorem le_length_yearText (year : Int) : 4 ≤ (yearText year).length := by
  have hdigits := le_length_padded 4 year.natAbs
  unfold yearText
  dsimp only
  split_ifs
  · rw [String.length_append]
    omega
  · rw [String.length_append]
    omega
  · exact hdigits

theorem length_yearText {year : Int} (h : 0 ≤ year ∧ year ≤ 9999) : (yearText year).length = 4 := by
  unfold yearText
  dsimp only
  rw [if_neg (Int.not_lt.2 h.1), if_neg (Int.not_lt.2 h.2)]
  exact length_padded_of_lt (by decide) (by omega)

theorem length_text (t : Timestamp) :
    t.text.length = (yearText t.year).length + (padded 2 t.month).length + (padded 2 t.day).length +
      (padded 2 t.hour).length + (padded 2 t.minute).length + (padded 2 t.second).length + 5 := by
  have hdash : "-".length = 1 := rfl
  have hline : "_".length = 1 := rfl
  simp only [text, String.length_append, hdash, hline]
  omega

theorem le_length_text (t : Timestamp) : 19 ≤ t.text.length := by
  have hyear := le_length_yearText t.year
  have hpart := le_length_padded 2
  have hmonth := hpart t.month
  have hday := hpart t.day
  have hhour := hpart t.hour
  have hminute := hpart t.minute
  have hsecond := hpart t.second
  rw [length_text]
  omega

theorem Fits.length_text {t : Timestamp} (h : t.Fits) : t.text.length = 19 := by
  have hpart {n : Nat} (hn : n < 100) : (padded 2 n).length = 2 := length_padded_of_lt (by decide) hn
  rw [Timestamp.length_text, length_yearText h.year, hpart h.month, hpart h.day, hpart h.hour,
    hpart h.minute, hpart h.second]

end Timestamp

namespace Archive

open FileTree

variable {t : FileTree} {root : Path} {label : String}

/-! ## Names -/

theorem length_cleanLabel (h : label ≠ "") : (cleanLabel label).length = label.length := by
  have hempty : ¬ label.isEmpty = true := by simpa using h
  rw [cleanLabel, if_neg hempty, String.length_ofList, List.length_map, String.length_toList]

/-- The length of a numbered name: the label, a line, the moment, and what the number adds. -/
def nameLength (label : String) (moment : Timestamp) (number : Nat) : Nat :=
  label.length + 1 + moment.text.length + if number = 0 then 0 else 1 + (toString number).length

theorem length_numberedName (h : label ≠ "") (moment : Timestamp) (number : Nat) :
    (numberedName (baseName label moment) number).length = nameLength label moment number := by
  have hdash : "-".length = 1 := rfl
  have hline : "_".length = 1 := rfl
  have hbase : (baseName label moment).length = label.length + 1 + moment.text.length := by
    rw [baseName, String.length_append, String.length_append, length_cleanLabel h, hline]
  by_cases hnumber : number = 0
  · rw [numberedName, nameLength, if_pos hnumber, if_pos hnumber]
    exact hbase.trans (Nat.add_zero _).symm
  · rw [numberedName, nameLength, if_neg hnumber, if_neg hnumber, String.length_append,
      String.length_append, hbase, hdash, Nat.add_assoc]

theorem utf8ByteSize_numberedName (h : label ≠ "") (moment : Timestamp) (number : Nat) :
    (numberedName (baseName label moment) number).utf8ByteSize = nameLength label moment number := by
  rw [(isNameText_numberedName label moment number).utf8ByteSize_eq, length_numberedName h]

theorem nul_notMem_numberedName (label : String) (moment : Timestamp) (number : Nat) :
    '\x00' ∉ (numberedName (baseName label moment) number).toList := fun hmem =>
  absurd (isNameText_numberedName label moment number _ hmem) (by decide)

theorem le_nameLength (label : String) (moment : Timestamp) (number : Nat) :
    label.length + 20 ≤ nameLength label moment number := by
  have hmoment := moment.le_length_text
  unfold nameLength
  omega

theorem nameLength_zero (label : String) {moment : Timestamp} (h : moment.Fits) :
    nameLength label moment 0 = label.length + 20 := by
  rw [nameLength, h.length_text, if_pos rfl]

/-! ## Directories -/

/--
In a root that accepts entries, a batch gets the directory of the first free number, unless the name
of that directory or its path is too long, or the number is.
-/
theorem makeBatchDirectory_of_accepts (h : t.Accepts root) (hlabel : label ≠ "")
    (moment : Timestamp) :
    ∃ number, (∀ smaller < number,
        numberedName (baseName label moment) smaller ∈ t.namesAt (t.placeOf root)) ∧
      makeBatchDirectory t root label moment =
        if UInt32.size ≤ number then (.error (.archive root .overflow), t)
        else if nameLength label moment number ≤ nameLimit ∧
            (numberedPath root label moment number).text.utf8ByteSize < pathLimit then
          (.ok (numberedPath root label moment number),
            t.put (t.placeOf root ++ [numberedName (baseName label moment) number]) .directory)
        else (.error (.archive (numberedPath root label moment number) .nameTooLong), t) := by
  have hsound : t.RefusesSoundlyIn root := fun name hrefuses => by
    rw [h.refuses name] at hrefuses
    cases hrefuses
  obtain ⟨number, -, hfirst⟩ := exists_firstFree hsound label moment
  have hsearch := hfirst.makeNumbered_eq
  refine ⟨number, fun smaller hsmaller =>
    hsound.mem_namesAt (isName_numberedName label moment smaller) (hfirst.taken smaller hsmaller), ?_⟩
  have hmade := makeDirectory_of_accepts h (isName_numberedName label moment number)
    (nul_notMem_numberedName label moment number)
  rw [utf8ByteSize_numberedName hlabel, ← numberedPath] at hmade
  by_cases hnumber : UInt32.size ≤ number
  · rw [if_neg (Nat.not_lt.2 hnumber)] at hsearch
    simp only [makeBatchDirectory, makeDirectories_of_opens h.opens, hsearch, if_pos hnumber]
  rw [if_pos (Nat.lt_of_not_le hnumber)] at hsearch
  rw [if_neg hnumber]
  by_cases hfits : nameLength label moment number ≤ nameLimit ∧
      (numberedPath root label moment number).text.utf8ByteSize < pathLimit
  · have hvacant : numberedName (baseName label moment) number ∉ t.namesAt (t.placeOf root) := by
      intro hmem
      rw [if_pos hfits, if_pos hmem] at hmade
      exact hfirst.free hmade
    rw [if_pos hfits, if_neg hvacant] at hmade
    simp only [makeBatchDirectory, makeDirectories_of_opens h.opens, hsearch, tryNumber, hmade,
      if_pos hfits]
  · rw [if_neg hfits] at hmade
    simp only [makeBatchDirectory, makeDirectories_of_opens h.opens, hsearch, tryNumber, hmade,
      if_neg hfits]

/-- No number helps a label that is too long, also where the root is made first. -/
theorem makeBatchDirectory_of_long_label {below : FileTree}
    (hrooted : t.makeDirectories root = (.ok (), below)) (h : below.Accepts root)
    (hlong : nameLimit < label.length + 20) (moment : Timestamp) :
    ∃ e, makeBatchDirectory t root label moment = (.error e, below) := by
  have hlabel : label ≠ "" := by
    rintro rfl
    exact absurd hlong (by decide)
  have hsame : makeBatchDirectory t root label moment =
      makeBatchDirectory below root label moment := by
    simp only [makeBatchDirectory, hrooted, makeDirectories_of_opens h.opens]
  obtain ⟨number, -, hmade⟩ := makeBatchDirectory_of_accepts h hlabel moment
  have hname := le_nameLength label moment number
  rw [hsame, hmade]
  split_ifs with hnumber hfits
  · exact ⟨_, rfl⟩
  · omega
  · exact ⟨_, rfl⟩

/--
The label that a script has from its file has no more characters than the file's name has bytes.
Whatever the moment and the number, the name that is built from it stands for an entry, and has a
byte for each character of the label and at least twenty more; exactly twenty for a year of four
digits and no number. In a root that accepts entries the batch gets its directory unless this is
more than a name may have, or the path is too long, or all numbers are taken.
-/
theorem makeBatchDirectory_by_length {file : List UInt8} (hfile : Script.IsFileName file)
    (h : t.Accepts root) (moment : Timestamp) :
    let label := Script.labelOfName file
    (∀ (directory : Path) (name : String), name.toUTF8.data.toList = file →
      Script.labelOf (directory.join name) = label) ∧
    label.length ≤ file.length ∧
    (∀ number, Path.IsName (numberedName (baseName label moment) number) ∧
      '\x00' ∉ (numberedName (baseName label moment) number).toList ∧
      (numberedName (baseName label moment) number).utf8ByteSize = nameLength label moment number ∧
      label.length + 20 ≤ nameLength label moment number) ∧
    (moment.Fits → nameLength label moment 0 = label.length + 20) ∧
    ∃ number, (∀ smaller < number,
        numberedName (baseName label moment) smaller ∈ t.namesAt (t.placeOf root)) ∧
      makeBatchDirectory t root label moment =
        if UInt32.size ≤ number then (.error (.archive root .overflow), t)
        else if nameLength label moment number ≤ nameLimit ∧
            (numberedPath root label moment number).text.utf8ByteSize < pathLimit then
          (.ok (numberedPath root label moment number),
            t.put (t.placeOf root ++ [numberedName (baseName label moment) number]) .directory)
        else (.error (.archive (numberedPath root label moment number) .nameTooLong), t) := by
  intro label
  have hlabel : label ≠ "" := Script.labelOfName_ne_empty hfile.ne_nil
  refine ⟨fun directory name hname => ?_, Script.length_labelOfName_le file, fun number => ?_,
    nameLength_zero label, makeBatchDirectory_of_accepts h hlabel moment⟩
  · subst hname
    exact Script.labelOf_join directory hfile.isName
  · exact ⟨isName_numberedName label moment number, nul_notMem_numberedName label moment number,
      utf8ByteSize_numberedName hlabel moment number, le_nameLength label moment number⟩

theorem makeBatchDirectory_by_length_of_long_name :
    let label := String.ofList (List.replicate 240 'a')
    let t : FileTree :=
      { FileTree.empty with nodes := [(["work", "fails"], .directory), (["work"], .directory)] }
    Script.IsFileName (label ++ ".sql").toUTF8.data.toList ∧ t.Accepts ⟨"fails"⟩ ∧
      Script.labelOf ⟨label ++ ".sql"⟩ = label ∧
      makeBatchDirectory t ⟨"fails"⟩ label (.ofSeconds 1709993107) =
        (.error (.archive ((⟨"fails"⟩ : Path).join (label ++ "_2024-03-09_14-05-07"))
          .nameTooLong), t) := by
  intro label t
  let file : List UInt8 := List.replicate 240 0x61 ++ [0x2E, 0x73, 0x71, 0x6C]
  have hbytes : (label ++ ".sql").toUTF8.data.toList = file := by
    rw [Text.toUTF8_eq_flatMap, String.toList_append, String.toList_ofList]
    decide +kernel
  have hfile : Script.IsFileName file := by constructor <;> decide +kernel
  have hlabel : Script.labelOfName file = label := by
    have hstem : (List.replicate 240 0x61 : List UInt8) =
        (List.replicate 240 'a').flatMap String.utf8EncodeChar := by decide +kernel
    rw [Script.labelOfName, Script.stemAt_append _ (by decide), if_neg (by decide), hstem,
      Text.decode_encoded]
  have haccepts : t.Accepts ⟨"fails"⟩ := ⟨⟨by decide +kernel, by decide +kernel⟩, fun _ => rfl⟩
  obtain ⟨hpaths, -, -, hfits, number, htaken, hmade⟩ :=
    makeBatchDirectory_by_length hfile haccepts (.ofSeconds 1709993107)
  rw [hlabel] at hpaths hfits htaken hmade
  have hzero : number = 0 := by
    by_contra hne
    exact absurd (htaken 0 (Nat.pos_of_ne_zero hne)) (by decide +kernel)
  have hlong : ¬ nameLength label (.ofSeconds 1709993107) number ≤ nameLimit := by
    rw [hzero, hfits (by constructor <;> decide +kernel), String.length_ofList, List.length_replicate]
    decide
  have hclean : cleanLabel label = label := by
    refine cleanLabel_eq_self (hlabel ▸ Script.labelOfName_ne_empty hfile.ne_nil) fun c hmem => ?_
    rw [String.toList_ofList] at hmem
    rw [List.eq_of_mem_replicate hmem]
    decide
  have hmoment : (Timestamp.ofSeconds 1709993107).text = "2024-03-09_14-05-07" := by decide +kernel
  have hline : "_" ++ "2024-03-09_14-05-07" = "_2024-03-09_14-05-07" := by decide
  have hpath : numberedPath ⟨"fails"⟩ label (.ofSeconds 1709993107) number =
      (⟨"fails"⟩ : Path).join (label ++ "_2024-03-09_14-05-07") := by
    rw [hzero, numberedPath, numberedName, if_pos rfl, baseName, hclean, hmoment, String.append_assoc,
      hline]
  have hfound := hpaths ⟨""⟩ (label ++ ".sql") hbytes
  rw [Path.join, if_pos (.inl (by decide)), String.empty_append] at hfound
  refine ⟨hbytes ▸ hfile, haccepts, hfound, ?_⟩
  have hnumber : ¬ UInt32.size ≤ number := by
    rw [hzero]
    decide
  rw [hmade, if_neg hnumber, if_neg fun hshort => hlong hshort.1, hpath]

end Archive

end SqlScript
