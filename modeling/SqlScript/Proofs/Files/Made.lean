import SqlScript.Proofs.Files.Join
import SqlScript.Proofs.Files.Tree
import Mathlib.Data.List.TakeWhile

/-!
# Making directories

A directory is made at a vacant place in a directory that is there. To make a directory with what is
missing above it adds directories on the way to it and nothing else (`AddsDirectories`), and no
directory at all if it is there already.
-/

namespace SqlScript

theorem Path.exists_blanks (path : Path) :
    ∃ blanks, path.pieces = (path.pieces.reverse.dropWhile (· = "")).reverse ++ blanks ∧
      ∀ piece ∈ blanks, piece = "" := by
  refine ⟨(path.pieces.reverse.takeWhile (· = "")).reverse, ?_, fun piece hmem => ?_⟩
  · rw [← List.reverse_append, List.takeWhile_append_dropWhile, List.reverse_reverse]
  · simpa using List.mem_takeWhile_imp (List.mem_reverse.1 hmem)

namespace FileTree

variable {t later made : FileTree} {path root : Path} {place start dest : Location}

theorem walk_blanks (hplace : t.node? place = some .directory) {blanks : List String}
    (hblanks : ∀ piece ∈ blanks, piece = "") : t.walk place blanks = .ok place := by
  induction blanks with
  | nil => rfl
  | cons piece rest ih =>
      obtain ⟨rfl, hrest⟩ := List.forall_mem_cons.1 hblanks
      simp only [walk, step, hplace, true_or, if_true]
      exact ih hrest

theorem eq_of_walk_blanks {blanks : List String} (hblanks : ∀ piece ∈ blanks, piece = "")
    (h : t.walk place blanks = .ok dest) : dest = place := by
  rw [foldl_enter_of_walk h]
  clear h
  induction blanks with
  | nil => rfl
  | cons piece rest ih =>
      obtain ⟨rfl, hrest⟩ := List.forall_mem_cons.1 hblanks
      exact ih hrest

/-! ## One directory -/

/-- A path leads to a place that was vacant before a directory was made there. -/
structure MadeAt (t : FileTree) (path : Path) (made : FileTree) (place : Location) : Prop where
  vacant : t.node? place = none
  eq_put : made = t.put place .directory
  located : made.locate path = .ok place
  parent : t.IsTree → t.node? place.dropLast = some .directory

namespace MadeAt

theorem ne_nil (h : MadeAt t path made place) : place ≠ [] := by
  rintro rfl
  cases h.vacant

theorem keeps (h : MadeAt t path made place) : t.Keeps made := by
  rw [h.eq_put]
  exact keeps_put h.vacant _

theorem node? (h : MadeAt t path made place) (other : Location) :
    made.node? other = if other = place then some .directory else t.node? other := by
  rw [h.eq_put, node?_put t h.ne_nil]

theorem isTree (h : MadeAt t path made place) (htree : t.IsTree) : made.IsTree := by
  rw [h.eq_put]
  exact htree.put (h.parent htree) fun _ => rfl

theorem eq_placeOf (h : MadeAt t path made place) : place = t.placeOf path := by
  rw [eq_placeOf_of_locate h.located, placeOf_congr h.keeps.workDirectory]

end MadeAt

/-- A step in a tree leads to a node or to a vacant place in a directory. -/
theorem IsTree.parent_of_step (htree : t.IsTree) {piece : String}
    (h : t.step place piece = .ok dest) (hvacant : t.node? dest = none) :
    t.node? dest.dropLast = some .directory := by
  obtain ⟨hplace, rfl⟩ := enter_of_step h
  unfold enter at hvacant ⊢
  split_ifs at hvacant ⊢
  · rw [hplace] at hvacant
    cases hvacant
  · rw [htree.parent_of_node? hplace] at hvacant
    cases hvacant
  · rwa [List.dropLast_concat]

theorem IsTree.parent_of_walk (htree : t.IsTree) {pieces : List String}
    (h : t.walk start pieces = .ok dest) (hne : pieces ≠ []) (hvacant : t.node? dest = none) :
    t.node? dest.dropLast = some .directory := by
  obtain ⟨front, last, rfl⟩ := List.eq_nil_or_concat pieces |>.resolve_left hne
  rw [List.concat_eq_append, walk_append] at h
  cases hfront : t.walk start front with
  | error e => simp [hfront] at h
  | ok middle =>
      simp only [hfront, walk] at h
      cases hstep : t.step middle last with
      | error e => simp [hstep] at h
      | ok next =>
          simp only [hstep, Except.ok.injEq] at h
          subst h
          exact htree.parent_of_step hstep hvacant

/-- A relative path that is not empty has a piece that is not. -/
theorem exists_piece_ne_empty (hempty : ¬ path.isEmpty = true) (habsolute : ¬ path.isAbsolute = true) :
    (path.pieces.reverse.dropWhile (· = "")).reverse ≠ [] := by
  intro hnone
  obtain ⟨blanks, hpieces, hblanks⟩ := path.exists_blanks
  rw [hnone, List.nil_append] at hpieces
  cases htext : path.text.toList with
  | nil => exact hempty (by simpa [Path.isEmpty] using htext)
  | cons c rest =>
      have hc : c ≠ '/' := by
        rintro rfl
        exact habsolute (by simp [Path.isAbsolute, htext])
      obtain ⟨piece, more, hrest⟩ := Text.exists_pieces_cons '/' rest
      have hfirst : String.ofList (c :: piece) ∈ path.pieces := by
        rw [Path.pieces, htext, Text.pieces_cons_of_ne hc hrest]
        exact List.mem_cons_self
      rw [hpieces] at hfirst
      have hsame := congrArg String.toList (hblanks _ hfirst)
      rw [String.toList_ofList] at hsame
      cases hsame

/-- What is made is a directory at a vacant place, to which the path without its last slashes leads. -/
theorem exists_walk_of_makeDirectory (h : t.makeDirectory path = .ok made) :
    ∃ start place, t.base path = .ok start ∧
      t.walk start (path.pieces.reverse.dropWhile (· = "")).reverse = .ok place ∧
      t.node? place = none ∧ made = t.put place .directory := by
  unfold makeDirectory at h
  cases hbase : t.base path with
  | error e => simp [hbase] at h
  | ok start =>
      simp only [hbase] at h
      cases hwalk : t.walk start (path.pieces.reverse.dropWhile (· = "")).reverse with
      | error e => simp [hwalk] at h
      | ok place =>
          simp only [hwalk] at h
          split at h
          · cases h
          · cases h
          · next hvacant hrefuses =>
            cases h
            exact ⟨start, place, rfl, hwalk, hvacant, rfl⟩

/-- A walk without pieces ends where it starts, at the root or at a path that is not empty. -/
theorem ne_nil_of_walk_vacant (hbase : t.base path = .ok start)
    (hwalk : t.walk start (path.pieces.reverse.dropWhile (· = "")).reverse = .ok place)
    (hvacant : t.node? place = none) : (path.pieces.reverse.dropWhile (· = "")).reverse ≠ [] := by
  intro hnone
  rw [hnone, walk, Except.ok.injEq] at hwalk
  by_cases habsolute : path.isAbsolute = true
  · have hstart := base_eq_ok hbase
    rw [if_pos habsolute] at hstart
    rw [← hwalk, hstart] at hvacant
    cases hvacant
  · refine exists_piece_ne_empty (fun hempty => ?_) habsolute hnone
    simp [base, hempty] at hbase
    split_ifs at hbase

/-- A path leads to a directory that was made where it leads without its last slashes. -/
theorem locate_of_walk (hbase : t.base path = .ok start)
    (hwalk : t.walk start (path.pieces.reverse.dropWhile (· = "")).reverse = .ok place)
    (hkeeps : KeepsDirectories t later) (hplace : later.node? place = some .directory) :
    later.locate path = .ok place := by
  obtain ⟨blanks, hpieces, hblanks⟩ := path.exists_blanks
  have hbase' : later.base path = .ok start := by
    rw [← hbase]
    unfold base
    rw [hkeeps.workDirectory]
  rw [FileTree.locate, hbase', hpieces]
  simp only [walk_append, hkeeps.walk hwalk]
  exact walk_blanks hplace hblanks

theorem exists_madeAt (h : t.makeDirectory path = .ok made) : ∃ place, MadeAt t path made place := by
  obtain ⟨start, place, hbase, hwalk, hvacant, rfl⟩ := exists_walk_of_makeDirectory h
  have hmade : (t.put place .directory).node? place = some .directory := by
    rw [node?_put_self]
    rintro rfl
    cases hvacant
  refine ⟨place, hvacant, rfl, ?_, fun htree => ?_⟩
  · exact locate_of_walk hbase hwalk (keeps_put hvacant .directory).keepsDirectories hmade
  · exact htree.parent_of_walk hwalk (ne_nil_of_walk_vacant hbase hwalk hvacant) hvacant

/-- No directory is made where there is something. -/
theorem makeDirectory_of_locate {node : FileNode} (hlocate : t.locate path = .ok place)
    (hnode : t.node? place = some node) : t.makeDirectory path = .error .alreadyExists := by
  unfold locate at hlocate
  unfold makeDirectory
  cases hbase : t.base path with
  | error e => simp [hbase] at hlocate
  | ok start =>
      simp only [hbase] at hlocate ⊢
      obtain ⟨blanks, hpieces, hblanks⟩ := path.exists_blanks
      rw [hpieces, walk_append] at hlocate
      cases hwalk : t.walk start (path.pieces.reverse.dropWhile (· = "")).reverse with
      | error e => simp [hwalk] at hlocate
      | ok middle =>
          simp only [hwalk] at hlocate ⊢
          obtain rfl := eq_of_walk_blanks hblanks hlocate
          simp only [hnode]

theorem makeDirectory_join (t : FileTree) (directory : Path) {name : String}
    (h : Path.IsName name) :
    t.makeDirectory (directory.join name) =
      match t.locate (directory.join name) with
      | .error e => .error e
      | .ok place =>
          match t.node? place, t.refuses place with
          | some _, _ => .error .alreadyExists
          | none, some e => .error e
          | none, none => .ok (t.put place .directory) := by
  have hpieces : ((directory.join name).pieces.reverse.dropWhile (· = "")).reverse =
      (directory.join name).pieces := by
    rw [Path.pieces_join directory h, List.reverse_append, List.reverse_singleton,
      List.singleton_append, List.dropWhile_cons_of_neg (by simpa using h.ne_empty),
      List.reverse_cons, List.reverse_reverse]
  rw [makeDirectory, hpieces, locate]
  cases t.base (directory.join name) <;> rfl

/-! ## A directory and what is missing above it -/

/-- A directory at a place that was vacant, and that one of some paths names. -/
structure NewDirectory (t : FileTree) (paths : List Path) (later : FileTree) (place : Location) :
    Prop where
  vacant : t.node? place = none
  made : later.node? place = some .directory
  named : ∃ path ∈ paths, place = t.placeOf path

theorem NewDirectory.mono {paths more : List Path} (h : NewDirectory t paths later place)
    (hmore : paths ⊆ more) : NewDirectory t more later place := by
  obtain ⟨path, hpath, hplace⟩ := h.named
  exact ⟨h.vacant, h.made, path, hmore hpath, hplace⟩

/-- The later tree has directories at vacant places that some paths name, and nothing else is new. -/
structure AddsDirectories (t : FileTree) (paths : List Path) (later : FileTree) : Prop where
  keeps : t.Keeps later
  isTree : t.IsTree → later.IsTree
  new : ∀ place, later.node? place = t.node? place ∨ NewDirectory t paths later place

theorem AddsDirectories.refl (t : FileTree) (paths : List Path) : AddsDirectories t paths t :=
  ⟨.refl t, fun h => h, fun _ => .inl rfl⟩

theorem AddsDirectories.trans {paths more : List Path} {latest : FileTree}
    (h : AddsDirectories t paths later) (h' : AddsDirectories later more latest) :
    AddsDirectories t (paths ++ more) latest := by
  refine ⟨h.keeps.trans h'.keeps, fun htree => h'.isTree (h.isTree htree), fun place => ?_⟩
  rcases h'.new place with hsame | ⟨hvacant, hmade, path, hpath, hplace⟩
  · rw [hsame]
    refine (h.new place).imp_right fun ⟨hvacant, hmade, path, hpath, hplace⟩ => ?_
    exact ⟨hvacant, hsame.trans hmade, path, List.mem_append_left _ hpath, hplace⟩
  · rw [placeOf_congr h.keeps.workDirectory] at hplace
    exact .inr ⟨h.keeps.node?_eq_none hvacant, hmade, path, List.mem_append_right _ hpath, hplace⟩

theorem AddsDirectories.mono {paths more : List Path} (h : AddsDirectories t paths later)
    (hmore : paths ⊆ more) : AddsDirectories t more later :=
  ⟨h.keeps, h.isTree, fun place => (h.new place).imp_right fun hnew => hnew.mono hmore⟩

theorem MadeAt.addsDirectories (h : MadeAt t path made place) :
    AddsDirectories t [path] made := by
  refine ⟨h.keeps, h.isTree, fun other => ?_⟩
  have hnode := h.node? other
  split_ifs at hnode with hother
  · subst hother
    exact .inr ⟨h.vacant, hnode, path, List.mem_singleton_self path, h.eq_placeOf⟩
  · exact .inl hnode

theorem addsDirectories_makeLineage (t : FileTree) (paths : List Path) :
    AddsDirectories t paths (t.makeLineage paths).2 := by
  induction paths with
  | nil => exact .refl t []
  | cons path above ih =>
      by_cases hempty : path.isEmpty = true
      · rw [makeLineage, if_pos hempty]
        exact .refl t _
      rw [makeLineage, if_neg hempty]
      cases hmade : t.makeDirectory path with
      | ok made =>
          obtain ⟨place, hplace⟩ := exists_madeAt hmade
          exact hplace.addsDirectories.mono (by simp)
      | error e =>
          cases e
          case notFound =>
            -- The rest of the lineage comes first, and then the path is tried again.
            rcases hbelow : t.makeLineage above with ⟨answer, below⟩
            rw [hbelow] at ih
            cases answer with
            | error e => exact ih.mono (List.subset_cons_self path above)
            | ok _ =>
                cases hlast : below.makeDirectory path with
                | error e =>
                    simp only [hlast]
                    exact ih.mono (List.subset_cons_self path above)
                | ok made =>
                    obtain ⟨place, hplace⟩ := exists_madeAt hlast
                    simp only [hlast]
                    exact (ih.trans hplace.addsDirectories).mono (by simp)
          all_goals exact .refl t _

theorem addsDirectories_makeDirectories (t : FileTree) (path : Path) :
    AddsDirectories t path.lineage (t.makeDirectories path).2 :=
  addsDirectories_makeLineage t path.lineage

/-- A root that is there is left as it is. -/
theorem makeDirectories_of_opens (h : t.Opens root) : t.makeDirectories root = (.ok (), t) := by
  obtain ⟨hinside, hnode⟩ := h
  have hlineage : ∃ above, root.lineage = root :: above := ⟨_, rfl⟩
  obtain ⟨above, hlineage⟩ := hlineage
  by_cases hempty : root.isEmpty = true
  · rw [makeDirectories, hlineage, makeLineage, if_pos hempty]
  rw [inside, if_neg hempty] at hinside
  rw [makeDirectories, hlineage, makeLineage, if_neg hempty, makeDirectory_of_locate hinside hnode]
  simp only [isDirectory, hinside, hnode, beq_self_eq_true, if_true]

/-! ## What cannot be read -/

theorem hides_makeDirectories (t : FileTree) (path : Path) :
    (t.makeDirectories path).2.hides = t.hides :=
  (addsDirectories_makeDirectories t path).keeps.hides

theorem hides_write {content : ByteArray} (h : t.write path content = .ok later) :
    later.hides = t.hides := by
  unfold write at h
  cases hlocate : t.locate path with
  | error e => simp [hlocate] at h
  | ok place =>
      simp only [hlocate] at h
      split at h
      · cases h
      · cases h
      · cases h
        exact hides_put ..

/-- No change to files has a part in which of them can be read. -/
theorem hides_change (t : FileTree) (change : Change) : (t.change change).hides = t.hides := by
  cases change with
  | write path content =>
      simp only [FileTree.change]
      cases path.parent? with
      | none =>
          dsimp only
          split
          · next written hwritten => exact hides_write hwritten
          · rfl
      | some parent =>
          dsimp only
          split
          · next written hwritten =>
            exact (hides_write hwritten).trans (hides_makeDirectories t parent)
          · exact hides_makeDirectories t parent
  | makeDirectory path => exact hides_makeDirectories t path
  | remove path =>
      simp only [FileTree.change, remove]
      cases t.locate path <;> rfl

theorem hides_changes (t : FileTree) (changes : List Change) :
    (t.changes changes).hides = t.hides := by
  induction changes generalizing t with
  | nil => rfl
  | cons change rest ih => exact (ih (t.change change)).trans (t.hides_change change)

end FileTree

end SqlScript
