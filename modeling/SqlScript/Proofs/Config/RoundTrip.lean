import SqlScript.Config.Printer
import SqlScript.Config.Reader
import SqlScript.Proofs.Files.ReadBack
import SqlScript.Proofs.Json.Reader

/-!
# Configurations read back

Every text of a configuration's JSON value is read as that configuration, whatever blanks are
between its marks (`Config.parse_of_spells`). So a configuration that was written to a file is loaded
from it if and only if it is valid (`Config.load_written_iff`).
-/

namespace SqlScript

open Json

variable {blanks text rest : List Char}

theorem readChoice_quote {ofWord? : String → Option α} {word : String} {choice : α}
    (hword : ofWord? word = some choice) (hblanks : IsBlanks blanks) (rest : List Char) :
    readChoice ofWord? (blanks ++ ((quote word).toList ++ rest)) = .ok (choice, rest) := by
  simp only [readChoice, readString_quote hblanks, hword, bind, Except.bind, pure, Except.pure]

/-! ## Choices -/

theorem Archive.Mode.ofWord?_word (mode : Mode) : ofWord? mode.word = some mode := by
  cases mode <;> decide

theorem Archive.Mode.read_quote (hblanks : IsBlanks blanks) (mode : Mode) (rest : List Char) :
    Mode.read (blanks ++ ((quote mode.word).toList ++ rest)) = .ok (mode, rest) := by
  have hchoice := readChoice_quote (ofWord?_word mode) isBlanks_nil rest
  rw [List.nil_append] at hchoice
  rw [toList_quote, List.cons_append] at hchoice ⊢
  rw [Mode.read, skipBlank_append_cons hblanks (by decide)]
  exact hchoice

theorem SplitMode.Kind.ofWord?_word (kind : Kind) : ofWord? kind.word = some kind := by
  cases kind <;> decide

/-- The members behind the kind, whose values are strings. -/
theorem SplitMode.readMembers_strings {others : List (String × String)}
    (hkeys : ∀ member ∈ others, member.1 ≠ kindKey) {fuel : Nat} (hfuel : others.length < fuel)
    (kind : Kind) {texts : List (List Char)}
    (hmembers : List.Forall₂ SpellsMember (others.map fun member => (member.1, .string member.2))
      texts)
    (h : Laid '\x7d' false texts text) (rest : List Char) :
    readMembers fuel false (some kind) (text ++ rest) =
      .ok (some kind, others.map fun member => (member.1, .string member.2), rest) := by
  induction others generalizing fuel texts text with
  | nil =>
      obtain ⟨fuel, rfl⟩ := Nat.exists_eq_add_one_of_ne_zero (Nat.ne_zero_of_lt hfuel)
      cases hmembers
      rw [readMembers, h.skipBlank_close (by decide)]
      rfl
  | cons member others ih =>
      obtain ⟨fuel, rfl⟩ := Nat.exists_eq_add_one_of_ne_zero (Nat.ne_zero_of_lt hfuel)
      obtain ⟨hkey, hkeys⟩ := List.forall_mem_cons.1 hkeys
      obtain ⟨head, tail, keyText, colon, blanks, valueText, laterTexts, later, hskip, hhead, hnext,
        hread, hcolon, hblanks, hvalue, hlater, hlaid⟩ := h.exists_member hmembers rest
      obtain rfl := eq_of_spells_string hvalue
      have hstring := readValue_quote hblanks
        (2 * (blanks ++ ((quote member.2).toList ++ (later ++ rest))).length + 1) innerDepth member.2
        (later ++ rest)
      have hrest := ih hkeys (Nat.lt_of_succ_lt_succ hfuel) hlater hlaid
      rw [readMembers, hskip]
      split
      · next heq => cases heq
      · next heq => exact absurd (List.cons.inj heq).1 hhead
      · simp only [hnext, openKey, hread, hkey, hcolon, fuelFor, hstring, hrest, bind, Except.bind,
          pure, Except.pure, if_false, List.map_cons]

namespace SplitMode

def kind : SplitMode → Kind
  | .scan => .scan
  | .delimiter _ => .delimiter

/-- The members of a division's object behind its kind. -/
def details : SplitMode → List (String × String)
  | .scan => []
  | .delimiter character => [(delimiterKey, character.toString)]

theorem toJson_eq (mode : SplitMode) :
    mode.toJson = .object ((kindKey, .string mode.kind.word) ::
      mode.details.map fun member => (member.1, .string member.2)) := by
  cases mode <;> rfl

theorem ofMembers_details (mode : SplitMode) :
    ofMembers (mode.details.map fun member => (member.1, .string member.2)) mode.kind =
      .ok mode := by
  cases mode with
  | scan => rfl
  | delimiter character => simp [ofMembers, details, kind, ofDelimiter]

theorem key_ne_of_mem_details (mode : SplitMode) :
    ∀ member ∈ mode.details, member.1 ≠ kindKey := by
  cases mode with
  | scan => exact List.forall_mem_nil _
  | delimiter character => exact List.forall_mem_singleton.2 (by decide : delimiterKey ≠ kindKey)

theorem read_spelled {mode : SplitMode} (hblanks : IsBlanks blanks) (h : Spells mode.toJson text)
    (rest : List Char) : read (blanks ++ (text ++ rest)) = .ok (mode, rest) := by
  rw [toJson_eq] at h
  obtain ⟨texts, members, rfl, hmembers, hlaid⟩ := exists_of_spells_object h
  have hlength := hlaid.length_le
  rw [← hmembers.length_eq, List.length_cons, List.length_map, if_pos rfl] at hlength
  obtain ⟨head, tail, keyText, colon, before, valueText, laterTexts, later, hskip, hhead, hnext,
    hread, hcolon, hbefore, hvalue, hlater, hrest⟩ := hlaid.exists_member hmembers rest
  obtain rfl := eq_of_spells_string hvalue
  have hchoice := readChoice_quote (Kind.ofWord?_word mode.kind) hbefore (later ++ rest)
  have hfuel : mode.details.length < 2 * (members ++ rest).length + 1 := by
    rw [List.length_append]
    omega
  have hdetails := readMembers_strings mode.key_ne_of_mem_details hfuel mode.kind hlater hrest rest
  have hobject : readMembers (fuelFor (members ++ rest)) true none (members ++ rest) =
      .ok (some mode.kind, mode.details.map fun member => (member.1, .string member.2), rest) := by
    rw [fuelFor, readMembers, hskip]
    split
    · next heq => cases heq
    · next heq => exact absurd (List.cons.inj heq).1 hhead
    · simp only [hnext, openKey, hread, hcolon, hchoice, hdetails, Option.isSome_none, bind,
        Except.bind, pure, Except.pure, Bool.false_eq_true, if_true, if_false]
  rw [read, List.cons_append, skipBlank_append_cons hblanks (by decide)]
  simp only [hobject, ofMembers_details, bind, Except.bind, pure, Except.pure]

end SplitMode

namespace Config

/-! ## Fields -/

/-- The configuration with the value that another one has for a field. -/
def adopt (c other : Config) : Field → Config
  | .excludedPrefixes => { c with excludedPrefixes := other.excludedPrefixes }
  | .maxAttempts => { c with maxAttempts := other.maxAttempts }
  | .reconnectAttempts => { c with reconnectAttempts := other.reconnectAttempts }
  | .archiveRoot => { c with archiveRoot := other.archiveRoot }
  | .archiveFailures => { c with archiveFailures := other.archiveFailures }
  | .archiveMode => { c with archiveMode := other.archiveMode }
  | .reapplyFilterOnRetry => { c with reapplyFilterOnRetry := other.reapplyFilterOnRetry }
  | .splitMode => { c with splitMode := other.splitMode }
  | .stripPatterns => { c with stripPatterns := other.stripPatterns }

theorem foldl_adopt_all (c other : Config) : Field.all.foldl (·.adopt other) c = other := by
  simp only [Field.all, List.foldl_cons, List.foldl_nil, adopt]

theorem Field.ofKey?_key (field : Field) : ofKey? field.key = some field := by
  cases field <;> decide

/-- A field is read from every text of its value. -/
theorem readField_spelled (c other : Config) {field : Field} (hblanks : IsBlanks blanks)
    (h : Spells (other.fieldJson field) text) (hrest : EndsNumeral rest) :
    c.readField (blanks ++ (text ++ rest)) field = .ok (c.adopt other field, rest) := by
  cases field with
  | excludedPrefixes =>
      simp only [readField, readStrings_spelled hblanks h, bind, Except.bind]
      rfl
  | maxAttempts =>
      obtain rfl := eq_of_spells_number h
      simp only [readField, readWord32_toString hblanks _ hrest, bind, Except.bind]
      rfl
  | reconnectAttempts =>
      obtain rfl := eq_of_spells_number h
      simp only [readField, readWord32_toString hblanks _ hrest, bind, Except.bind]
      rfl
  | archiveRoot =>
      obtain rfl := eq_of_spells_string h
      simp only [readField, readString_quote hblanks, bind, Except.bind]
      rfl
  | archiveFailures =>
      obtain rfl := eq_of_spells_bool h
      simp only [readField, readBool_text hblanks, bind, Except.bind]
      rfl
  | archiveMode =>
      obtain rfl := eq_of_spells_string h
      simp only [readField, Archive.Mode.read_quote hblanks, bind, Except.bind]
      rfl
  | reapplyFilterOnRetry =>
      obtain rfl := eq_of_spells_bool h
      simp only [readField, readBool_text hblanks, bind, Except.bind]
      rfl
  | splitMode =>
      simp only [readField, SplitMode.read_spelled hblanks h, bind, Except.bind]
      rfl
  | stripPatterns =>
      simp only [readField, readStrings_spelled hblanks h, bind, Except.bind]
      rfl

/-- Members are read one after another, each of them once. -/
theorem readMembers_spelled (other : Config) {fields seen : List Field} (hnodup : fields.Nodup)
    (hseen : ∀ field ∈ fields, field ∉ seen) {fuel : Nat} (hfuel : fields.length < fuel)
    {first : Bool} {texts : List (List Char)}
    (hmembers : List.Forall₂ SpellsMember
      (fields.map fun field => (field.key, other.fieldJson field)) texts)
    (h : Laid '\x7d' first texts text) (c : Config) (rest : List Char) :
    readMembers fuel first seen c (text ++ rest) = .ok (fields.foldl (·.adopt other) c, rest) := by
  induction fields generalizing seen fuel first texts text c with
  | nil =>
      obtain ⟨fuel, rfl⟩ := Nat.exists_eq_add_one_of_ne_zero (Nat.ne_zero_of_lt hfuel)
      cases hmembers
      rw [readMembers, h.skipBlank_close (by decide)]
      rfl
  | cons field fields ih =>
      obtain ⟨fuel, rfl⟩ := Nat.exists_eq_add_one_of_ne_zero (Nat.ne_zero_of_lt hfuel)
      obtain ⟨hfield, hnodup⟩ := List.nodup_cons.1 hnodup
      obtain ⟨hfirst, hseen⟩ := List.forall_mem_cons.1 hseen
      obtain ⟨head, tail, keyText, colon, blanks, valueText, laterTexts, later, hskip, hhead, hnext,
        hread, hcolon, hblanks, hvalue, hlater, hlaid⟩ := h.exists_member hmembers rest
      have hends : EndsNumeral (later ++ rest) := hlaid.endsNumeral (by rintro _ ⟨⟩; decide)
      have hvalue := c.readField_spelled other hblanks hvalue hends
      have hseen' : ∀ other ∈ fields, other ∉ field :: seen := by
        intro other hmem
        rw [List.mem_cons, not_or]
        exact ⟨fun heq => hfield (heq ▸ hmem), hseen other hmem⟩
      have hrest := ih hnodup hseen' (Nat.lt_of_succ_lt_succ hfuel) hlater hlaid (c.adopt other field)
      rw [readMembers, hskip]
      split
      · next heq => cases heq
      · next heq => exact absurd (List.cons.inj heq).1 hhead
      · simp only [hnext, openKey, hread, Field.ofKey?_key, hfirst, hcolon, hvalue, hrest, bind,
          Except.bind, if_false, List.foldl_cons]

/-! ## Texts and files -/

theorem nodup_all : Field.all.Nodup := by decide

theorem read_spelled {c : Config} (h : Spells c.toJson text) : read text = .ok (c, []) := by
  obtain ⟨texts, members, rfl, hmembers, hlaid⟩ := exists_of_spells_object h
  have hlength := hlaid.length_le
  rw [← hmembers.length_eq, List.length_map, if_pos rfl] at hlength
  have hfuel : Field.all.length < fuelFor members := by
    rw [fuelFor]
    omega
  have hread := readMembers_spelled c nodup_all (fun _ _ => List.not_mem_nil) hfuel hmembers hlaid
    .default []
  rw [List.append_nil, foldl_adopt_all] at hread
  rw [read, skipBlank_cons (by decide)]
  exact hread

/-- A configuration is read from every text of its JSON value. -/
theorem parse_of_spells {c : Config} {text : String} (h : Spells c.toJson text.toList) :
    parse text = .ok c := by
  simp [parse, readDocument, read_spelled h, skipBlank, bind, Except.bind, pure, Except.pure]

theorem load_of_parse {t : FileTree} {path : Path} {text : String} {c : Config}
    (htext : t.readText path = .ok text) (hparse : parse text = .ok c) :
    load t path = c.validated := by
  simp only [load, htext, hparse]

/--
A configuration that was written to a file, on one line or with one item a line, is loaded from it
if and only if it is valid, unless reading the file is refused.
-/
theorem load_written_iff {c : Config} {t later : FileTree} {path : Path} {text : String}
    (htext : text = c.toJson.compact ∨ text = c.toJson.pretty)
    (hwrite : t.writeText path text = .ok later) (hreadable : later.IsReadable path) :
    load later path = .ok c ↔ c.IsValid := by
  have hspells : Spells c.toJson text.toList := by
    rcases htext with rfl | rfl
    · exact spells_compact c.toJson
    · exact spells_pretty c.toJson
  rw [load_of_parse (FileTree.readText_of_writeText hwrite hreadable) (parse_of_spells hspells),
    validated_eq_ok_iff]
  exact and_iff_left rfl

/-- Quotes, backslashes, control characters and marks of JSON in the settings are read back. -/
theorem load_written_iff_with_escapes :
    let c : Config :=
      { excludedPrefixes := ["\"\\/", "\n\x01\x7f"], maxAttempts := 4294967295,
        reconnectAttempts := 1, archiveRoot := ⟨"a//b/.\t"⟩, archiveFailures := true,
        archiveMode := .sequential, reapplyFilterOnRetry := true, splitMode := .delimiter '\x22',
        stripPatterns := ["],\x7b", "é\u2028", "😀"] }
    c.IsValid ∧ ∃ later, FileTree.empty.writeText ⟨"c.json"⟩ c.toJson.pretty = .ok later ∧
      load later ⟨"c.json"⟩ = .ok c := by
  intro c
  have hvalid : c.IsValid := by decide
  have hfault : FileTree.empty.writeFault? ⟨"c.json"⟩ = none := by decide +kernel
  have hwrite := FileTree.writeText_eq FileTree.empty ⟨"c.json"⟩ c.toJson.pretty
  rw [hfault] at hwrite
  have hreadable : (FileTree.empty.put (FileTree.empty.placeOf ⟨"c.json"⟩)
      (.file c.toJson.pretty.toUTF8)).IsReadable ⟨"c.json"⟩ := by
    rw [FileTree.IsReadable, FileTree.hides_put]
    rfl
  exact ⟨hvalid, _, hwrite, (load_written_iff (.inr rfl) hwrite hreadable).2 hvalid⟩

end Config

end SqlScript
