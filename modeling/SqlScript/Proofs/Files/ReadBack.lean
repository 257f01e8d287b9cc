import SqlScript.Proofs.Files.Join

/-!
# Reading back what was written

A write changes one place and leaves every directory a directory, so that paths lead where they led
before. What was written at a place is read there, until that place is written again. Where reading
is refused nothing is read, and so nothing else either.
-/

namespace SqlScript

namespace FileTree

variable {t later : FileTree}

/-- Every directory of `t` is one of the later tree, and relative paths start where they did. -/
structure KeepsDirectories (t later : FileTree) : Prop where
  workDirectory : later.workDirectory = t.workDirectory
  directory : ∀ place, t.node? place = some .directory → later.node? place = some .directory

theorem KeepsDirectories.refl (t : FileTree) : KeepsDirectories t t := ⟨rfl, fun _ h => h⟩

theorem KeepsDirectories.trans {latest : FileTree} (h : KeepsDirectories t later)
    (h' : KeepsDirectories later latest) : KeepsDirectories t latest :=
  ⟨h'.workDirectory.trans h.workDirectory, fun place hplace =>
    h'.directory place (h.directory place hplace)⟩

theorem KeepsDirectories.step (h : KeepsDirectories t later) {place next : Location}
    {piece : String} (hstep : t.step place piece = .ok next) : later.step place piece = .ok next := by
  unfold FileTree.step at *
  cases hnode : t.node? place with
  | none => simp [hnode] at hstep
  | some node =>
      cases node with
      | file content => simp [hnode] at hstep
      | directory =>
          rw [h.directory place hnode]
          simpa [hnode] using hstep

theorem KeepsDirectories.walk (h : KeepsDirectories t later) {pieces : List String}
    {place dest : Location} (hwalk : t.walk place pieces = .ok dest) :
    later.walk place pieces = .ok dest := by
  induction pieces generalizing place with
  | nil => exact hwalk
  | cons piece rest ih =>
      simp only [FileTree.walk] at hwalk ⊢
      cases hstep : t.step place piece with
      | error e => simp [hstep] at hwalk
      | ok next =>
          rw [h.step hstep]
          simp only [hstep] at hwalk
          exact ih hwalk

/-- A path that leads to a place goes on to lead there. -/
theorem KeepsDirectories.locate (h : KeepsDirectories t later) {path : Path} {place : Location}
    (hlocate : t.locate path = .ok place) : later.locate path = .ok place := by
  have hbase : later.base path = t.base path := by
    unfold base
    rw [h.workDirectory]
  unfold FileTree.locate at *
  rw [hbase]
  cases hstart : t.base path with
  | error e => simp [hstart] at hlocate
  | ok start =>
      simp only [hstart] at hlocate
      exact h.walk hlocate

theorem ne_nil_of_node?_ne_directory {place : Location}
    (h : t.node? place ≠ some .directory) : place ≠ [] := by
  rintro rfl
  exact h (node?_root t)

theorem keepsDirectories_put_file {place : Location} (content : ByteArray)
    (h : t.node? place ≠ some .directory) :
    KeepsDirectories t (t.put place (.file content)) := by
  refine ⟨workDirectory_put .., fun other hother => ?_⟩
  have hne : other ≠ place := by
    rintro rfl
    exact h hother
  rw [node?_put_of_ne t hne, hother]

/-- Why a file cannot be written, if so. -/
def writeFault? (t : FileTree) (path : Path) : Option FileError :=
  match t.locate path with
  | .error e => some e
  | .ok place =>
      match t.node? place with
      | some .directory => some .isDirectory
      | _ => t.refuses place

theorem writeText_eq (t : FileTree) (path : Path) (text : String) :
    t.writeText path text =
      match t.writeFault? path with
      | some e => .error e
      | none => .ok (t.put (t.placeOf path) (.file text.toUTF8)) := by
  unfold writeText write writeFault?
  cases hlocate : t.locate path with
  | error e => rfl
  | ok place =>
      rw [← eq_placeOf_of_locate hlocate]
      dsimp only
      cases hnode : t.node? place with
      | none => cases t.refuses place <;> rfl
      | some node =>
          cases node with
          | directory => rfl
          | file content => cases t.refuses place <;> rfl

theorem locate_of_writeFault? {path : Path} (h : t.writeFault? path = none) :
    t.locate path = .ok (t.placeOf path) ∧ t.node? (t.placeOf path) ≠ some .directory := by
  unfold writeFault? at h
  cases hlocate : t.locate path with
  | error e => simp [hlocate] at h
  | ok place =>
      rw [← eq_placeOf_of_locate hlocate]
      refine ⟨rfl, fun hnode => ?_⟩
      simp [hlocate, hnode] at h

theorem writeFault?_congr {path : Path} (hlocate : later.locate path = t.locate path)
    (hrefuses : later.refuses = t.refuses)
    (hnode : later.node? (t.placeOf path) = t.node? (t.placeOf path)) :
    later.writeFault? path = t.writeFault? path := by
  unfold writeFault?
  rw [hlocate]
  cases hplace : t.locate path with
  | error e => rfl
  | ok place =>
      rw [← eq_placeOf_of_locate hplace] at hnode
      simp only [hnode, hrefuses]

/-- Nothing keeps what a path leads to from being read. -/
def IsReadable (t : FileTree) (path : Path) : Prop := t.hides (t.placeOf path) = none

instance (t : FileTree) (path : Path) : Decidable (t.IsReadable path) :=
  inferInstanceAs (Decidable (t.hides (t.placeOf path) = none))

/-- A file with a text in it reads as that text, or reading it is refused. -/
theorem readText_eq {path : Path} {place : Location} {text : String}
    (hlocate : t.locate path = .ok place) (hnode : t.node? place = some (.file text.toUTF8)) :
    t.readText path =
      match t.hides place with
      | some e => .error e
      | none => .ok text := by
  have hvalid : String.fromUTF8? text.toUTF8 = some text := by
    unfold String.fromUTF8?
    rw [String.toUTF8_eq_toByteArray, dif_pos text.isValidUTF8]
    rfl
  simp only [readText, readBytes, hlocate, hnode]
  cases t.hides place with
  | none => simp only [hvalid]
  | some e => rfl

theorem readText_of_isReadable {path : Path} {place : Location} {text : String}
    (hlocate : t.locate path = .ok place) (hnode : t.node? place = some (.file text.toUTF8))
    (hreadable : t.IsReadable path) : t.readText path = .ok text := by
  rw [IsReadable, ← eq_placeOf_of_locate hlocate] at hreadable
  rw [readText_eq hlocate hnode, hreadable]

theorem eq_of_readText {path : Path} {place : Location} {text found : String}
    (hlocate : t.locate path = .ok place) (hnode : t.node? place = some (.file text.toUTF8))
    (h : t.readText path = .ok found) : found = text := by
  rw [readText_eq hlocate hnode] at h
  cases hhides : t.hides place with
  | none =>
      rw [hhides] at h
      exact (Except.ok.inj h).symm
  | some e =>
      rw [hhides] at h
      cases h

/-- A text that was written is read where it was written. -/
theorem readText_of_writeText {path : Path} {text : String}
    (h : t.writeText path text = .ok later) (hreadable : later.IsReadable path) :
    later.readText path = .ok text := by
  rw [writeText_eq] at h
  cases hfault : t.writeFault? path with
  | some e => simp [hfault] at h
  | none =>
      simp only [hfault, Except.ok.injEq] at h
      subst h
      obtain ⟨hlocate, hnode⟩ := locate_of_writeFault? hfault
      have hkeeps := keepsDirectories_put_file text.toUTF8 hnode
      exact readText_of_isReadable (hkeeps.locate hlocate)
        (node?_put_self t (ne_nil_of_node?_ne_directory hnode) _) hreadable

/-! ## Entries of a directory -/

theorem Opens.of_keepsDirectories {root : Path} (h : t.Opens root) (hkeeps : KeepsDirectories t later) :
    later.Opens root := by
  obtain ⟨hinside, hnode⟩ := h
  rw [Opens, placeOf_congr hkeeps.workDirectory]
  refine ⟨?_, hkeeps.directory _ hnode⟩
  unfold inside at hinside ⊢
  split_ifs at hinside ⊢
  · rw [hkeeps.workDirectory]
    exact hinside
  · exact hkeeps.locate hinside

/-- Where an entry is and whether its path is one at all does not depend on other entries. -/
theorem KeepsDirectories.locate_join (hkeeps : KeepsDirectories t later) {directory : Path}
    (h : t.Opens directory) {name : String} (hname : Path.IsName name) :
    later.locate (directory.join name) = t.locate (directory.join name) := by
  have hbase : later.base (directory.join name) = t.base (directory.join name) := by
    unfold base
    rw [hkeeps.workDirectory]
  unfold FileTree.locate
  rw [hbase]
  cases hstart : t.base (directory.join name) with
  | error e => rfl
  | ok start =>
      have hwalk := walk_lead h hname hstart
      simp only [Path.pieces_join directory hname, walk_append, hwalk, hkeeps.walk hwalk,
        FileTree.walk, step_name h.2 hname, step_name (hkeeps.directory _ h.2) hname]

end FileTree

end SqlScript
