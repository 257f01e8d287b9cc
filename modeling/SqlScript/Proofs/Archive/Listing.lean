import SqlScript.Proofs.Archive.Spelling
import SqlScript.Proofs.Files.Tree

/-!
# Directories in any order

A directory is listed in no order that it promises. Opening it sorts the files by the numbers that
their names stand for, and leaves those of one number as they were listed. So all orders give one
batch if and only if no two files stand for one number: `Batch.openAt_by_content`.
-/

namespace SqlScript.Archive

open FileTree

variable {t later : FileTree} {directory : Path} {names other listed : List String}

/-! ## Files of a directory -/

/-- Only files of a directory stand for statements, and only by their names. -/
theorem statementFile_eq_some_iff {name : String} {entry : Entry} :
    statementFile t directory name = some entry ↔
      ∃ n, t.isFile (directory.join name) = true ∧ ordinalOfName? name = some n ∧
        entry = ⟨n, directory.join name⟩ := by
  rw [statementFile, Option.ite_none_right_eq_some, Option.map_eq_some_iff]
  constructor
  · rintro ⟨hfile, n, hname, rfl⟩
    exact ⟨n, hfile, hname, rfl⟩
  · rintro ⟨n, hfile, hname, rfl⟩
    exact ⟨hfile, n, hname, rfl⟩

theorem nodup_filterMap_statementFile (t : FileTree) (directory : Path) (h : names.Nodup) :
    (names.filterMap (statementFile t directory)).Nodup := by
  refine h.filterMap fun first second entry hfirst hsecond => ?_
  obtain ⟨m, -, -, rfl⟩ := statementFile_eq_some_iff.1 hfirst
  obtain ⟨n, -, -, hsame⟩ := statementFile_eq_some_iff.1 hsecond
  exact Path.join_inj (Entry.mk.inj hsame).2

/-- The name of a file that is taken is its number, with no more before it than a sign and zeros. -/
theorem exists_spelling_of_mem {entry : Entry}
    (h : entry ∈ names.filterMap (statementFile t directory)) :
    ∃ plus zeros, entry.path = directory.join (spelling plus zeros entry.ordinal ++ ".sql") := by
  obtain ⟨name, -, hname⟩ := List.mem_filterMap.1 h
  obtain ⟨n, -, hnumber, rfl⟩ := statementFile_eq_some_iff.1 hname
  obtain ⟨-, plus, zeros, rfl⟩ := ordinalOfName?_eq_some_iff_spelling.1 hnumber
  exact ⟨plus, zeros, rfl⟩

theorem nodup_of_fileName (hnames : names.Nodup)
    (h : ∀ entry ∈ names.filterMap (statementFile t directory),
      entry.path = directory.join (fileName entry.ordinal)) :
    ((names.filterMap (statementFile t directory)).map Entry.ordinal).Nodup := by
  refine (List.nodup_map_iff_inj_on (nodup_filterMap_statementFile t directory hnames)).2 ?_
  intro a ha b hb hsame
  rw [Entry.mk.injEq]
  exact ⟨hsame, by rw [h a ha, h b hb, hsame]⟩

/-! ## One order -/

theorem perm_entries_ofNames (t : FileTree) (directory : Path) (names : List String) :
    (Batch.ofNames t directory names).entries.Perm (names.filterMap (statementFile t directory)) :=
  List.mergeSort_perm _ _

theorem pairwise_entries_ofNames (t : FileTree) (directory : Path) (names : List String) :
    (Batch.ofNames t directory names).entries.Pairwise fun a b => a.ordinal ≤ b.ordinal := by
  have hsorted : (Batch.ofNames t directory names).entries.Pairwise
      fun a b => decide (a.ordinal ≤ b.ordinal) = true := by
    refine List.pairwise_mergeSort (fun a b c => ?_) (fun a b => ?_) _
    · simpa using Nat.le_trans
    · simpa using Nat.le_total a.ordinal b.ordinal
  exact hsorted.imp of_decide_eq_true

/-- Files of one number stand in the order in which they were listed. -/
theorem filter_entries_ofNames (t : FileTree) (directory : Path) (names : List String) (n : Nat) :
    (Batch.ofNames t directory names).entries.filter (fun entry => entry.ordinal == n) =
      (names.filterMap (statementFile t directory)).filter fun entry => entry.ordinal == n := by
  have hsame : ((names.filterMap (statementFile t directory)).filter
      fun entry => entry.ordinal == n).Sublist (Batch.ofNames t directory names).entries := by
    refine List.sublist_mergeSort (fun a b c => ?_) (fun a b => ?_) ?_ List.filter_sublist
    · simpa using Nat.le_trans
    · simpa using Nat.le_total a.ordinal b.ordinal
    · refine List.pairwise_of_forall_mem_list fun a ha b hb => ?_
      have ha := beq_iff_eq.1 (List.mem_filter.1 ha).2
      have hb := beq_iff_eq.1 (List.mem_filter.1 hb).2
      exact decide_eq_true (Nat.le_of_eq (ha.trans hb.symm))
  have hfilter := hsame.filter fun entry => entry.ordinal == n
  rw [List.filter_filter] at hfilter
  simp only [Bool.and_self] at hfilter
  refine (hfilter.eq_of_length_le ?_).symm
  exact Nat.le_of_eq ((perm_entries_ofNames t directory names).filter _).length_eq

/-- Files that are listed by their numbers stay as they are listed. -/
theorem ofNames_eq_of_pairwise (h : (names.filterMap (statementFile t directory)).Pairwise
    fun a b => a.ordinal ≤ b.ordinal) :
    Batch.ofNames t directory names = ⟨directory, names.filterMap (statementFile t directory)⟩ :=
  congrArg (Batch.mk directory) (List.mergeSort_of_pairwise (h.imp fun hle => decide_eq_true hle))

/-! ## All orders -/

theorem ofNames_eq_of_perm (h : names.Perm other)
    (hnodup : ((other.filterMap (statementFile t directory)).map Entry.ordinal).Nodup) :
    Batch.ofNames t directory names = Batch.ofNames t directory other := by
  have hperm := perm_entries_ofNames t directory other
  have hentries : (Batch.ofNames t directory names).entries.Perm
      (Batch.ofNames t directory other).entries :=
    (perm_entries_ofNames t directory names).trans ((h.filterMap _).trans hperm.symm)
  refine congrArg (Batch.mk directory) (hentries.eq_of_pairwise ?_
    (pairwise_entries_ofNames t directory names) (pairwise_entries_ofNames t directory other))
  intro a b ha hb hle hge
  exact List.inj_on_of_nodup_map hnodup ((hentries.trans hperm).subset ha) (hperm.subset hb)
    (Nat.le_antisymm hle hge)

theorem length_le_one_of_reverse_eq {α : Type} {l : List α} (hnodup : l.Nodup)
    (h : l.reverse = l) : l.length ≤ 1 := by
  cases l with
  | nil => exact Nat.zero_le _
  | cons a rest =>
      by_contra hlong
      have hne : rest ≠ [] := by
        rintro rfl
        exact hlong (Nat.le_refl _)
      have hlast : (a :: rest).getLast? = some a := by
        rw [← h, List.getLast?_reverse, List.head?_cons]
      rw [List.getLast?_cons_of_ne_nil hne] at hlast
      exact (List.nodup_cons.1 hnodup).1 (List.mem_of_getLast? hlast)

/-- The order of a listing and its reverse give two batches if two files stand for one number. -/
theorem nodup_of_ofNames_reverse (hnodup : names.Nodup)
    (h : Batch.ofNames t directory names.reverse = Batch.ofNames t directory names) :
    ((names.filterMap (statementFile t directory)).map Entry.ordinal).Nodup := by
  rw [List.nodup_iff_count_le_one]
  intro n
  have hfilter := filter_entries_ofNames t directory names.reverse n
  rw [h, filter_entries_ofNames, List.filterMap_reverse, List.filter_reverse] at hfilter
  rw [List.count_eq_countP, List.countP_map, List.countP_eq_length_filter]
  exact length_le_one_of_reverse_eq
    ((nodup_filterMap_statementFile t directory hnodup).filter _) hfilter.symm

theorem ofNames_eq_iff (hnodup : listed.Nodup) :
    (∀ names other : List String, names.Perm listed → other.Perm listed →
      Batch.ofNames t directory names = Batch.ofNames t directory other) ↔
        ((listed.filterMap (statementFile t directory)).map Entry.ordinal).Nodup := by
  constructor
  · intro h
    exact nodup_of_ofNames_reverse hnodup (h _ _ (List.reverse_perm listed) (.refl listed))
  · intro hordinals names other hnames hother
    rw [ofNames_eq_of_perm hnames hordinals, ofNames_eq_of_perm hother hordinals]

/-! ## All trees with the same files -/

theorem statementFile_congr (h : t.Same later) (directory : Path) :
    statementFile later directory = statementFile t directory := by
  funext name
  simp only [statementFile, h.isFile]

theorem Batch.read_congr (h : t.Same later) (batch : Batch) : batch.read later = batch.read t := by
  unfold read
  induction batch.entries with
  | nil => rfl
  | cons entry rest ih => simp only [readEntries, h.readText, ih]

theorem names_eq_ok (h : t.names directory = .ok listed) :
    ∃ place, t.locate directory = .ok place ∧ t.node? place = some .directory ∧
      t.hides place = none ∧ listed = t.namesAt place := by
  unfold FileTree.names at h
  cases hlocate : t.locate directory with
  | error e => simp [hlocate] at h
  | ok place =>
      simp only [hlocate] at h
      split at h
      · cases h
      · cases h
      · cases h
      · next hnode hhides => exact ⟨place, rfl, hnode, hhides, (Except.ok.inj h).symm⟩

theorem Batch.openAt_eq_of_names (h : t.names directory = .ok listed) :
    openAt t directory = .ok (ofNames t directory listed) := by
  obtain ⟨place, hlocate, hnode, -, -⟩ := names_eq_ok h
  have hdirectory : t.isDirectory directory = true := by
    simp only [isDirectory, hlocate, hnode, beq_self_eq_true]
  simp only [openAt, hdirectory, h, if_true]

/-- A tree that holds the same in another order lists a directory in another order at most. -/
theorem Batch.openAt_of_same (htree : t.IsTree) (hlater : later.IsTree) (hsame : t.Same later)
    (h : t.names directory = .ok listed) :
    ∃ names : List String, names.Perm listed ∧
      openAt later directory = .ok (ofNames t directory names) := by
  obtain ⟨place, hlocate, hnode, hhides, rfl⟩ := names_eq_ok h
  refine ⟨later.namesAt place, hsame.perm_namesAt htree hlater place, ?_⟩
  have hnames : later.names directory = .ok (later.namesAt place) := by
    simp only [FileTree.names, hsame.locate, hlocate, hsame.node?, hnode, hsame.hides, hhides]
  rw [openAt_eq_of_names hnames, ofNames, ofNames, statementFile_congr hsame]

theorem Batch.openAt_eq_iff (htree : t.IsTree) (h : t.names directory = .ok listed) :
    (∀ later, t.Same later → later.IsTree → openAt later directory = openAt t directory) ↔
      ((listed.filterMap (statementFile t directory)).map Entry.ordinal).Nodup := by
  constructor
  · intro hall
    obtain ⟨place, hlocate, hnode, hhides, hplace⟩ := names_eq_ok h
    -- the tree whose table is turned round lists every directory the other way round
    have hturned := hall t.turned htree.same_turned htree.turned
    have hreverse : t.turned.names directory = .ok listed.reverse := by
      simp only [FileTree.names, htree.same_turned.locate, hlocate, htree.same_turned.node?, hnode,
        htree.same_turned.hides, hhides, namesAt_turned, hplace]
    rw [openAt_eq_of_names hreverse, openAt_eq_of_names h, ofNames,
      statementFile_congr htree.same_turned] at hturned
    exact nodup_of_ofNames_reverse (hplace ▸ htree.nodup_namesAt place) (Except.ok.inj hturned)
  · intro hnodup later hsame hlater
    obtain ⟨names, hperm, hother⟩ := openAt_of_same htree hlater hsame h
    rw [hother, openAt_eq_of_names h, ofNames_eq_of_perm hperm hnodup]

/--
The batch in a directory is its numbered files sorted by their numbers, those of one number as they
were listed. So it is one batch for all orders if and only if no two files have one number, and
then its texts are a matter of the directory's content alone. A file has its number from digits that
may have a plus sign and zeros before them; where all are named by bare numbers, no two are alike.
-/
theorem Batch.openAt_by_content (htree : t.IsTree) (hlisted : t.names directory = .ok listed) :
    let files := listed.filterMap (statementFile t directory)
    openAt t directory = .ok (ofNames t directory listed) ∧
    (∀ names : List String, names.Perm listed →
      (ofNames t directory names).entries.Perm files ∧
      (ofNames t directory names).entries.Pairwise (fun a b => a.ordinal ≤ b.ordinal) ∧
      ∀ n, (ofNames t directory names).entries.filter (fun entry => entry.ordinal == n) =
        (names.filterMap (statementFile t directory)).filter fun entry => entry.ordinal == n) ∧
    ((∀ names other : List String, names.Perm listed → other.Perm listed →
      ofNames t directory names = ofNames t directory other) ↔
        (files.map Entry.ordinal).Nodup) ∧
    ((∀ later, t.Same later → later.IsTree → openAt later directory = openAt t directory) ↔
      (files.map Entry.ordinal).Nodup) ∧
    ((files.map Entry.ordinal).Nodup → ∀ later batch, t.Same later → later.IsTree →
      openAt later directory = .ok batch →
        batch = ofNames t directory listed ∧ batch.read later = batch.read t) ∧
    (∀ entry ∈ files, ∃ plus zeros,
      entry.path = directory.join (spelling plus zeros entry.ordinal ++ ".sql")) ∧
    ((∀ entry ∈ files, entry.path = directory.join (fileName entry.ordinal)) →
      (files.map Entry.ordinal).Nodup) := by
  intro files
  obtain ⟨place, -, -, -, hplace⟩ := names_eq_ok hlisted
  have hnames : listed.Nodup := hplace ▸ htree.nodup_namesAt place
  have hopen := openAt_eq_of_names hlisted
  have honce := openAt_eq_iff htree hlisted
  refine ⟨hopen, fun names hperm => ⟨?_, pairwise_entries_ofNames t directory names,
      filter_entries_ofNames t directory names⟩, ofNames_eq_iff hnames, honce,
    fun hnodup later batch hsame hlater hbatch => ⟨?_, read_congr hsame batch⟩,
    fun entry => exists_spelling_of_mem, nodup_of_fileName hnames⟩
  · exact (perm_entries_ofNames t directory names).trans (hperm.filterMap _)
  · rw [honce.2 hnodup later hsame hlater, hopen] at hbatch
    exact (Except.ok.inj hbatch).symm

/-- Two files that spell one number are read as they are listed. -/
theorem Batch.openAt_by_content_of_two_spellings :
    let t : FileTree := { FileTree.empty with nodes := [(["work"], .directory),
      (["work", "1.sql"], .file "A".toUTF8), (["work", "01.sql"], .file "B".toUTF8)] }
    let directory : Path := ⟨"."⟩
    let entries : List Entry := [⟨1, directory.join "1.sql"⟩, ⟨1, directory.join "01.sql"⟩]
    t.IsTree ∧ t.names directory = .ok ["1.sql", "01.sql"] ∧ t.Same t.turned ∧
    openAt t directory = .ok ⟨directory, entries⟩ ∧
    openAt t.turned directory = .ok ⟨directory, entries.reverse⟩ ∧
    read t ⟨directory, entries⟩ = .ok ["A", "B"] ∧
    read t ⟨directory, entries.reverse⟩ = .ok ["B", "A"] ∧
    ¬ ∀ names other : List String, names.Perm ["1.sql", "01.sql"] →
      other.Perm ["1.sql", "01.sql"] → ofNames t directory names = ofNames t directory other := by
  intro t directory entries
  have htree : t.IsTree := by decide +kernel
  have hlisted : t.names directory = .ok ["1.sql", "01.sql"] := by decide +kernel
  have hturned : t.turned.names directory = .ok ["01.sql", "1.sql"] := by decide +kernel
  have hfiles : ["1.sql", "01.sql"].filterMap (statementFile t directory) = entries := by
    decide +kernel
  have hreverse : ["01.sql", "1.sql"].filterMap (statementFile t.turned directory) =
      entries.reverse := by
    decide +kernel
  have hall := (openAt_by_content htree hlisted).2.2.1
  refine ⟨htree, hlisted, htree.same_turned, ?_, ?_, by decide +kernel, by decide +kernel,
    fun h => ?_⟩
  · rw [openAt_eq_of_names hlisted, ofNames_eq_of_pairwise (by rw [hfiles]; decide), hfiles]
  · rw [openAt_eq_of_names hturned, ofNames_eq_of_pairwise (by rw [hreverse]; decide), hreverse]
  · rw [hall, hfiles] at h
    exact absurd h (by decide)

end SqlScript.Archive
