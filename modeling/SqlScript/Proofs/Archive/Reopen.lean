import SqlScript.Proofs.Archive.Listing
import SqlScript.Proofs.Archive.ReadBack

/-!
# Opening an archived batch

Opening the directory of a batch gives the batch back (`Batch.openAt_archived`), in whatever order
the directory is listed and whatever was added to it that is not named as a statement's file is.
-/

namespace SqlScript

namespace Archive

open FileTree

/-! ## Opening -/

variable {t after later : FileTree} {directory : Path} {failed : List Statement} {label : String}
  {moment : Timestamp} {batch : Batch} {texts names : List String}

theorem mem_entries_iff {count : Nat} {entry : Entry} :
    entry ∈ entries directory count ↔
      ∃ n < count, entry = ⟨n, directory.join (fileName n)⟩ := by
  simp only [entries, List.mem_map, List.mem_range, fileName, eq_comm]

theorem pairwise_entries (directory : Path) (count : Nat) :
    (entries directory count).Pairwise fun a b => a.ordinal < b.ordinal := by
  rw [entries, List.pairwise_map]
  exact List.pairwise_lt_range

/-- Sorted by position, the files of a directory are those of a batch in whatever order they come. -/
theorem ofNames_eq {count : Nat} (hnames : names.Nodup)
    (hfiles : ∀ entry, entry ∈ names.filterMap (statementFile t directory) ↔
      entry ∈ entries directory count) :
    Batch.ofNames t directory names = ⟨directory, entries directory count⟩ := by
  have hsorted := pairwise_entries directory count
  have hperm : (Batch.ofNames t directory names).entries.Perm (entries directory count) := by
    refine (perm_entries_ofNames t directory names).trans ?_
    refine (List.perm_ext_iff_of_nodup (nodup_filterMap_statementFile t directory hnames) ?_).2 hfiles
    exact hsorted.imp fun hlt hsame => Nat.ne_of_lt hlt (congrArg Entry.ordinal hsame)
  refine congrArg (Batch.mk directory) (hperm.eq_of_pairwise ?_
    (pairwise_entries_ofNames t directory names) (hsorted.imp Nat.le_of_lt))
  intro a b hfound hmem hle hge
  obtain ⟨m, -, rfl⟩ := mem_entries_iff.1 ((hperm.mem_iff).1 hfound)
  obtain ⟨n, -, rfl⟩ := mem_entries_iff.1 hmem
  have hsame : m = n := Nat.le_antisymm hle hge
  rw [hsame]

/-- Nothing is lost, and no file that was added to a directory is named by a number as statements are. -/
structure AddsOthers (t : FileTree) (directory : Path) (later : FileTree) : Prop where
  isTree : later.IsTree
  keeps : t.Keeps later
  unnumbered : ∀ stem content,
    t.node? (t.placeOf directory ++ [stem ++ ".sql"]) = none →
    later.node? (t.placeOf directory ++ [stem ++ ".sql"]) = some (.file content) →
    ordinalOfStem? stem = none

theorem addsOthers_put (htree : t.IsTree) (hopens : t.Opens directory) {name : String}
    {node : FileNode} (hvacant : t.node? (t.placeOf directory ++ [name]) = none)
    (hnode : node = .directory ∨ ordinalOfName? name = none) :
    AddsOthers t directory (t.put (t.placeOf directory ++ [name]) node) := by
  refine ⟨htree.put ?_ fun hfound => ?_, keeps_put hvacant node, fun stem content hbefore hafter => ?_⟩
  · rw [List.dropLast_concat]
    exact hopens.2
  · cases hvacant.symm.trans hfound
  · rw [node?_put t (by simp)] at hafter
    split_ifs at hafter with hsame
    · rcases hnode with hnode | hnode
      · cases hnode.symm.trans (Option.some.inj hafter)
      · obtain rfl : stem ++ ".sql" = name := by simpa using hsame
        rwa [ordinalOfName?_append] at hnode
    · cases hbefore.symm.trans hafter

theorem node?_of_isFile {name : String} (hname : Path.IsName name)
    (h : t.isFile (directory.join name) = true) :
    ∃ content, t.node? (t.placeOf directory ++ [name]) = some (.file content) := by
  unfold isFile at h
  cases hlocate : t.locate (directory.join name) with
  | error e => simp [hlocate] at h
  | ok place =>
      rw [← (inside_of_locate_join hname hlocate).2.2]
      simp only [hlocate] at h
      cases hnode : t.node? place with
      | none => simp [hnode] at h
      | some node =>
          cases node with
          | directory => simp [hnode] at h
          | file content => exact ⟨content, rfl⟩

theorem isFile_of_node? {path : Path} {place : Location} {content : ByteArray}
    (hlocate : t.locate path = .ok place) (hnode : t.node? place = some (.file content)) :
    t.isFile path = true := by
  simp only [isFile, hlocate, hnode]
  rfl

theorem Archived.mem_filterMap_iff {t : FileTree} {root : Path} {name : String}
    (h : Archived t root texts batch after name) (htexts : HasTexts after batch texts)
    (hlength : texts.length ≤ maxOrdinal + 1) (hlater : AddsOthers after batch.directory later)
    {entry : Entry} :
    entry ∈ (later.namesAt (later.placeOf batch.directory)).filterMap
        (statementFile later batch.directory) ↔
      entry ∈ entries batch.directory texts.length := by
  have hplace : later.placeOf batch.directory = after.placeOf batch.directory :=
    placeOf_congr hlater.keeps.workDirectory _
  rw [List.mem_filterMap, mem_entries_iff]
  constructor
  · rintro ⟨found, -, hfound⟩
    obtain ⟨n, hfile, hnumber, rfl⟩ := statementFile_eq_some_iff.1 hfound
    obtain ⟨content, hcontent⟩ := node?_of_isFile (isName_of_ordinalOfName? hnumber) hfile
    rw [hplace] at hcontent
    cases hbefore : after.node? (after.placeOf batch.directory ++ [found]) with
    | none =>
        obtain ⟨stem, rfl, hstem⟩ := ordinalOfName?_eq_some_iff.1 hnumber
        cases (hlater.unnumbered stem content hbefore hcontent).symm.trans hstem
    | some node =>
        rw [h.placeOf_eq] at hbefore
        obtain ⟨m, hlt, hname⟩ := h.holds.only [found] (by simp) (by rw [hbefore]; simp)
        obtain rfl : found = fileName m := by simpa using hname
        rw [ordinalOfName?_fileName (by omega), Option.some.injEq] at hnumber
        exact ⟨n, hnumber ▸ hlt, hnumber ▸ rfl⟩
  · rintro ⟨n, hlt, rfl⟩
    have hkept := htexts.of_keeps hlater.keeps
    have hnode := hkept.file n texts[n] (List.getElem?_eq_getElem hlt)
    refine ⟨fileName n, mem_namesAt_iff.2 (by simp [hnode]), statementFile_eq_some_iff.2 ⟨n, ?_, ?_, rfl⟩⟩
    · exact isFile_of_node? (hkept.located n hlt) hnode
    · exact ordinalOfName?_fileName (by omega)

/-- A directory that is there is listed, unless reading it is refused. -/
theorem names_of_opens (h : later.Opens directory) (hempty : ¬ directory.isEmpty = true) :
    later.names directory =
      match later.hides (later.placeOf directory) with
      | some e => .error e
      | none => .ok (later.namesAt (later.placeOf directory)) := by
  simp only [FileTree.names, h.locate hempty, h.2]
  cases later.hides (later.placeOf directory) <;> rfl

/--
Opening the directory of an archived batch gives the batch back with all its texts, however the
directory is listed and whatever else was added to it. Nothing else is ever opened or read; that it is
opened takes a directory that can be listed, and that it is read takes files that can be read.
Positions are read as numbers of 64 bits, and no list in memory has more of them.
-/
theorem Batch.openAt_archived {a : Archiver} (htree : t.IsTree)
    (hlength : failed.length ≤ UInt64.size)
    (h : a.MayArchive failed label moment t (.ok batch, after))
    (hlater : AddsOthers after batch.directory later) :
    (∀ found, openAt later batch.directory = .ok found → found = batch) ∧
    (later.IsReadable batch.directory → openAt later batch.directory = .ok batch ∧
      later.names batch.directory = .ok (later.namesAt (later.placeOf batch.directory))) ∧
    (∀ names : List String, names.Perm (later.namesAt (later.placeOf batch.directory)) →
      ofNames later batch.directory names = batch) ∧
    batch.Stores later (failed.map Statement.text) ∧ batch.size = failed.length := by
  have hfiled := filed_of_mayArchive h
  have htexts := hfiled.hasTexts
  obtain ⟨name, harchived⟩ := hfiled.archived htree
  have hbatch : batch = ⟨batch.directory, Archive.entries batch.directory failed.length⟩ := by
    rw [← List.length_map Statement.text, ← htexts.entries_eq]
  have hmax : (failed.map Statement.text).length ≤ maxOrdinal + 1 := by
    rw [List.length_map]
    exact hlength
  have hnames : ∀ names : List String,
      names.Perm (later.namesAt (later.placeOf batch.directory)) →
      ofNames later batch.directory names = batch := by
    intro names hperm
    rw [hbatch]
    refine ofNames_eq (hperm.nodup_iff.2 (hlater.isTree.nodup_namesAt _)) fun entry => ?_
    rw [(hperm.filterMap _).mem_iff, harchived.mem_filterMap_iff htexts hmax hlater,
      List.length_map]
  have hopens := harchived.opens.of_keepsDirectories hlater.keeps.keepsDirectories
  have hempty : ¬ batch.directory.isEmpty = true := by
    rw [harchived.directory_eq]
    exact Path.isEmpty_join a.root harchived.isName
  have hlisted := names_of_opens hopens hempty
  have hdirectory : later.isDirectory batch.directory = true := by
    simp only [isDirectory, hopens.locate hempty, hopens.2, beq_self_eq_true]
  have hopen : openAt later batch.directory =
      match later.hides (later.placeOf batch.directory) with
      | some e => .error (.archive batch.directory e)
      | none => .ok batch := by
    rw [openAt, if_pos hdirectory, hlisted]
    cases later.hides (later.placeOf batch.directory) with
    | some e => rfl
    | none => simp only [hnames _ (.refl _)]
  refine ⟨fun found hfound => ?_, fun hreadable => ?_, hnames,
    (htexts.of_keeps hlater.keeps).stores, ?_⟩
  · rw [hopen] at hfound
    cases hhides : later.hides (later.placeOf batch.directory) with
    | some e => simp [hhides] at hfound
    | none => simpa [hhides, eq_comm] using hfound
  · rw [FileTree.IsReadable] at hreadable
    rw [hreadable] at hopen hlisted
    exact ⟨hopen, hlisted⟩
  · rw [hbatch, size, Archive.entries, List.length_map, List.length_range]

theorem Batch.openAt_archived_with_notes :
    let failed : List Statement := [⟨3, "B"⟩, ⟨0, "A"⟩]
    ∃ batch after later,
      (⟨⟨"a"⟩, .parallel⟩ : Archiver).MayArchive failed "" (.ofSeconds 0) .empty (.ok batch, after) ∧
      later = after.put (after.placeOf batch.directory ++ ["notes.sql"]) (.file "note".toUTF8) ∧
      AddsOthers after batch.directory later ∧ openAt later batch.directory = .ok batch ∧
      batch.read later = .ok ["B", "A"] ∧ batch.size = 2 := by
  intro failed
  have hok : ((⟨⟨"a"⟩, .parallel⟩ : Archiver).archive failed "" (.ofSeconds 0) .empty).1.isOk = true := by
    decide +kernel
  have hmay := (⟨⟨"a"⟩, .parallel⟩ : Archiver).mayArchive_archive failed "" (.ofSeconds 0) .empty
  generalize (⟨⟨"a"⟩, .parallel⟩ : Archiver).archive failed "" (.ofSeconds 0) .empty = result at hok hmay
  obtain ⟨answer | batch, after⟩ := result
  · cases hok
  have htree : FileTree.empty.IsTree := by decide
  have hfiled := filed_of_mayArchive hmay
  obtain ⟨name, harchived⟩ := hfiled.archived htree
  have hvacant : after.node? (after.placeOf batch.directory ++ ["notes.sql"]) = none := by
    by_contra hfound
    rw [harchived.placeOf_eq] at hfound
    obtain ⟨n, hlt, hname⟩ := harchived.holds.only ["notes.sql"] (by decide) hfound
    have hnotes : ∀ n < 2, ["notes.sql"] ≠ [fileName n] := by decide +kernel
    exact hnotes n hlt hname
  have hlater : AddsOthers after batch.directory
      (after.put (after.placeOf batch.directory ++ ["notes.sql"]) (.file "note".toUTF8)) :=
    addsOthers_put (hfiled.isTree htree) harchived.opens hvacant (.inr (by decide +kernel))
  have hhides : ∀ place, (after.put (after.placeOf batch.directory ++ ["notes.sql"])
      (.file "note".toUTF8)).hides place = none := fun place => by
    rw [hides_put, (hfiled.keeps htree).hides]
    rfl
  obtain ⟨-, hopen, -, hstores, hsize⟩ := openAt_archived htree (by decide) hmay hlater
  exact ⟨batch, after, _, hmay, rfl, hlater, (hopen (hhides _)).1,
    hstores.read fun entry _ => hhides _, hsize⟩

end Archive

end SqlScript
