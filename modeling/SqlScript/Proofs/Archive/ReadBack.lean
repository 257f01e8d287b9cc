import SqlScript.Proofs.Archive.Filed

/-!
# Reading a batch back

A batch that was archived, in whichever order its files were written, stores the texts of its
statements in their order: every file has a name of its own. No read gives other texts, and a read
that nothing stands in the way of gives them (`Batch.Stores`). In a tree the batch's directory holds
these files and nothing else, and all that was there before is kept (`Archived`).
-/

namespace SqlScript.Archive

open FileTree

variable {t after later : FileTree} {root : Path} {failed : List Statement} {label : String}
  {moment : Timestamp} {batch : Batch} {texts : List String}

/-! ## Reading -/

namespace Batch

/-- Nothing keeps a file of the batch from being read. -/
def IsReadable (batch : Batch) (t : FileTree) : Prop :=
  ∀ entry ∈ batch.entries, t.IsReadable entry.path

instance (batch : Batch) (t : FileTree) : Decidable (batch.IsReadable t) :=
  inferInstanceAs (Decidable (∀ entry ∈ batch.entries, t.IsReadable entry.path))

/--
The files of a batch have these texts. Reading it gives nothing else, and it gives them if no file of
the batch is kept from being read.
-/
structure Stores (batch : Batch) (t : FileTree) (texts : List String) : Prop where
  isEmpty_iff : batch.isEmpty = true ↔ texts = []
  eq_of_read : ∀ {found}, batch.read t = .ok found → found = texts
  read : batch.IsReadable t → batch.read t = .ok texts

theorem readEntries_map {α : Type} (entry : α → Entry) (text : α → String) (items : List α)
    (h : ∀ item ∈ items, t.readText (entry item).path = .ok (text item)) :
    readEntries t (items.map entry) = .ok (items.map text) := by
  induction items with
  | nil => rfl
  | cons item rest ih =>
      have hrest := ih fun later hmem => h later (List.mem_cons_of_mem _ hmem)
      rw [List.map_cons, readEntries, h item List.mem_cons_self]
      simp only [hrest, List.map_cons]

theorem readEntries_cons_eq_ok_iff {entry : Entry} {rest : List Entry} {texts : List String} :
    readEntries t (entry :: rest) = .ok texts ↔ ∃ text later,
      t.readText entry.path = .ok text ∧ readEntries t rest = .ok later ∧ texts = text :: later := by
  rw [readEntries]
  cases t.readText entry.path with
  | error e => simp
  | ok text => cases readEntries t rest <;> simp [eq_comm]

theorem eq_of_readEntries_map {α : Type} (entry : α → Entry) (text : α → String) (items : List α)
    (h : ∀ item ∈ items, ∀ found, t.readText (entry item).path = .ok found → found = text item)
    (hread : readEntries t (items.map entry) = .ok texts) : texts = items.map text := by
  induction items generalizing texts with
  | nil =>
      cases hread
      rfl
  | cons item rest ih =>
      obtain ⟨found, later, hitem, hrest, rfl⟩ := readEntries_cons_eq_ok_iff.1 hread
      rw [h item List.mem_cons_self found hitem,
        ih (fun other hmem => h other (List.mem_cons_of_mem _ hmem)) hrest, List.map_cons]

/-- The texts of a batch are as many as its files. -/
theorem length_of_readEntries {entries : List Entry} (h : readEntries t entries = .ok texts) :
    texts.length = entries.length := by
  induction entries generalizing texts with
  | nil =>
      cases h
      rfl
  | cons entry rest ih =>
      obtain ⟨text, later, -, hrest, rfl⟩ := readEntries_cons_eq_ok_iff.1 h
      rw [List.length_cons, List.length_cons, ih hrest]

theorem isEmpty_iff_of_length (h : texts.length = batch.entries.length) :
    batch.isEmpty = true ↔ texts = [] := by
  rw [Batch.isEmpty, List.isEmpty_iff, ← List.length_eq_zero_iff, ← h, List.length_eq_zero_iff]

/-- What a batch was read as is what it stores. -/
theorem stores_of_read (h : batch.read t = .ok texts) : batch.Stores t texts :=
  ⟨isEmpty_iff_of_length (length_of_readEntries h),
    fun hfound => (Except.ok.inj (h.symm.trans hfound)).symm, fun _ => h⟩

end Batch

/-- The text of each file of a batch is the text of the statement at its position. -/
structure HasTexts (t : FileTree) (batch : Batch) (texts : List String) : Prop where
  entries_eq : batch.entries = entries batch.directory texts.length
  located : ∀ n < texts.length, t.locate (batch.directory.join (fileName n)) =
    .ok (t.placeOf batch.directory ++ [fileName n])
  file : ∀ n text, texts[n]? = some text →
    t.node? (t.placeOf batch.directory ++ [fileName n]) = some (.file text.toUTF8)

/-- The entry for a text and its position. -/
def entryOf (directory : Path) (item : String × Nat) : Entry :=
  ⟨item.2, directory.join (fileName item.2)⟩

theorem HasTexts.entries_map (h : HasTexts t batch texts) :
    batch.entries = texts.zipIdx.map (entryOf batch.directory) := by
  rw [h.entries_eq, entries, List.range_eq_range', ← List.zipIdx_map_snd 0 texts, List.map_map]
  rfl

theorem HasTexts.stores (h : HasTexts t batch texts) : batch.Stores t texts := by
  have hitem : ∀ item ∈ texts.zipIdx, t.locate (entryOf batch.directory item).path =
        .ok (t.placeOf batch.directory ++ [fileName item.2]) ∧
      t.node? (t.placeOf batch.directory ++ [fileName item.2]) = some (.file item.1.toUTF8) := by
    intro item hmem
    have hget := List.mem_zipIdx_iff_getElem?.1 hmem
    exact ⟨h.located _ (List.getElem?_eq_some_iff.1 hget).1, h.file _ _ hget⟩
  refine ⟨Batch.isEmpty_iff_of_length ?_, fun {found} hread => ?_, fun hreadable => ?_⟩
  · rw [h.entries_map, List.length_map, List.length_zipIdx]
  · have hfiles : ∀ item ∈ texts.zipIdx, ∀ read,
        t.readText (entryOf batch.directory item).path = .ok read → read = item.1 :=
      fun item hmem read => eq_of_readText (hitem item hmem).1 (hitem item hmem).2
    rw [Batch.read, h.entries_map] at hread
    rw [Batch.eq_of_readEntries_map _ Prod.fst texts.zipIdx hfiles hread, List.zipIdx_map_fst]
  · rw [Batch.IsReadable, h.entries_map] at hreadable
    have hfiles : ∀ item ∈ texts.zipIdx,
        t.readText (entryOf batch.directory item).path = .ok item.1 := fun item hmem =>
      readText_of_isReadable (hitem item hmem).1 (hitem item hmem).2
        (hreadable _ (List.mem_map_of_mem hmem))
    rw [Batch.read, h.entries_map, Batch.readEntries_map _ Prod.fst texts.zipIdx hfiles,
      List.zipIdx_map_fst]

/-- The files of a batch go on to hold its texts as long as they are not touched. -/
theorem HasTexts.of_keepsDirectories (h : HasTexts t batch texts)
    (hkeeps : KeepsDirectories t later)
    (hfiles : ∀ n < texts.length, later.node? (t.placeOf batch.directory ++ [fileName n]) =
      t.node? (t.placeOf batch.directory ++ [fileName n])) : HasTexts later batch texts := by
  refine ⟨h.entries_eq, fun n hlt => ?_, fun n text hget => ?_⟩
  · rw [placeOf_congr hkeeps.workDirectory]
    exact hkeeps.locate (h.located n hlt)
  · obtain ⟨hlt, -⟩ := List.getElem?_eq_some_iff.1 hget
    rw [placeOf_congr hkeeps.workDirectory, hfiles n hlt, h.file n text hget]

theorem HasTexts.of_keeps (h : HasTexts t batch texts) (hkeeps : t.Keeps later) :
    HasTexts later batch texts := by
  refine h.of_keepsDirectories hkeeps.keepsDirectories fun n hlt => ?_
  rw [h.file n texts[n] (List.getElem?_eq_getElem hlt)]
  exact hkeeps.node? (h.file n texts[n] (List.getElem?_eq_getElem hlt))

theorem Filed.hasTexts (h : Filed t root failed label moment (.ok batch, after)) :
    HasTexts after batch (failed.map Statement.text) := by
  cases h with
  | @complete directory made _ _ founding founded clean attempted =>
      have hplace (n : Nat) : made.placeOf (directory.join (fileName n)) =
          after.placeOf directory ++ [fileName n] := by
        rw [placeOf_join made _ (isName_fileName n),
          placeOf_congr attempted.keepsDirectories.workDirectory]
      refine ⟨by rw [List.length_map], fun n hlt => ?_, fun n text hget => ?_⟩
      · rw [List.length_map] at hlt
        have hjob : (⟨directory.join (fileName n), failed[n].text⟩ : Job) ∈ jobs directory failed :=
          mem_jobs_iff.2 ⟨n, _, List.getElem?_eq_getElem hlt, rfl⟩
        obtain ⟨hlocate, -⟩ := locate_of_writeFault? (clean _ hjob)
        rw [← hplace]
        exact attempted.keepsDirectories.locate hlocate
      · rw [List.getElem?_map, Option.map_eq_some_iff] at hget
        obtain ⟨s, hs, rfl⟩ := hget
        have hjob : (⟨directory.join (fileName n), s.text⟩ : Job) ∈ jobs directory failed :=
          mem_jobs_iff.2 ⟨n, s, hs, rfl⟩
        have hwritten := attempted.written _ hjob (clean _ hjob)
        rwa [hplace] at hwritten

/-- An archived batch stores the texts of its statements, in their order. -/
theorem stores_of_archive {a : Archiver} (h : a.archive failed label moment t = (.ok batch, after)) :
    batch.Stores after (failed.map Statement.text) :=
  (filed_of_mayArchive (h ▸ a.mayArchive_archive failed label moment t)).hasTexts.stores

theorem hides_of_archive {a : Archiver} {answer : Except ScriptError Batch}
    (h : a.archive failed label moment t = (answer, after)) : after.hides = t.hides :=
  (filed_of_mayArchive (h ▸ a.mayArchive_archive failed label moment t)).hides_eq

/-! ## In a tree -/

/-- A directory holds these texts in files that are named by position, and nothing else. -/
structure Holds (t : FileTree) (place : Location) (texts : List String) : Prop where
  directory : t.node? place = some .directory
  file : ∀ n text, texts[n]? = some text →
    t.node? (place ++ [fileName n]) = some (.file text.toUTF8)
  only : ∀ rest, rest ≠ [] → t.node? (place ++ rest) ≠ none →
    ∃ n < texts.length, rest = [fileName n]

/--
What an archived batch is in a tree: a new entry of the root with the texts in it. All else is as it
was, except that directories were made on the way to a root that was not there.
-/
structure Archived (t : FileTree) (root : Path) (texts : List String) (batch : Batch)
    (after : FileTree) (name : String) : Prop where
  isName : Path.IsName name
  directory_eq : batch.directory = root.join name
  opensRoot : after.Opens root
  opens : after.Opens batch.directory
  placeOf_eq : after.placeOf batch.directory = t.placeOf root ++ [name]
  vacant : t.node? (t.placeOf root ++ [name]) = none
  holds : Holds after (t.placeOf root ++ [name]) texts
  keeps : t.Keeps after
  new : ∀ place, ¬ t.placeOf root ++ [name] <+: place → after.node? place = t.node? place ∨
    (¬ t.Opens root ∧ NewDirectory t root.lineage after place)

theorem Filed.archived (h : Filed t root failed label moment (.ok batch, after)) (htree : t.IsTree) :
    ∃ name, Archived t root (failed.map Statement.text) batch after name := by
  have htexts := h.hasTexts
  have hkept := h.keeps htree
  cases h with
  | @complete directory made _ name founding founded clean attempted =>
      have hkeeps := attempted.keepsDirectories
      have hplace : after.placeOf directory = t.placeOf root ++ [name] := by
        rw [placeOf_congr hkeeps.workDirectory, founded.placeOf_eq]
      have hfile {job : Job} (hjob : job ∈ jobs directory failed) : ∃ n < failed.length,
          made.placeOf job.path = t.placeOf root ++ [name] ++ [fileName n] := by
        obtain ⟨n, s, hget, rfl⟩ := mem_jobs_iff.1 hjob
        refine ⟨n, (List.getElem?_eq_some_iff.1 hget).1, ?_⟩
        rw [placeOf_join made _ (isName_fileName n), founded.placeOf_eq]
      refine ⟨name, founded.isName, founded.directory_eq,
        founded.opensRoot.of_keepsDirectories hkeeps, founded.opens.of_keepsDirectories hkeeps,
        hplace, founded.vacant, ⟨?_, ?_, ?_⟩, hkept, ?_⟩
      · rw [← founded.placeOf_eq]
        exact hkeeps.directory _ founded.opens.2
      · intro n text hget
        rw [← hplace]
        exact htexts.file n text hget
      · intro rest hrest hfound
        rw [List.length_map]
        -- What was not written is not there, since nothing was there at first.
        by_contra hnone
        refine hfound ?_
        rw [attempted.other, founded.beneath htree hrest]
        rintro job hjob - hsame
        obtain ⟨n, hlt, hat⟩ := hfile hjob
        exact hnone ⟨n, hlt, List.append_cancel_left (hsame.trans hat)⟩
      · exact fun place => founded.new_of_attempted (List.Subset.refl _) attempted

end SqlScript.Archive
