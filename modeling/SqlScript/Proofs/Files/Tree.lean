import SqlScript.Proofs.Files.ReadBack
import Mathlib.Data.List.Induction
import Mathlib.Data.List.Nodup

/-!
# Trees

In a tree every place has one node and lies in a directory, so that nothing lies beneath a place
without a node. New nodes in directories that are there keep it a tree.
-/

namespace SqlScript.FileTree

variable {t later : FileTree} {place : Location} {node : FileNode}

/-- Each place stands once in the table, and its parent is a directory. -/
structure IsTree (t : FileTree) : Prop where
  nodup : (t.nodes.map Prod.fst).Nodup
  parent : ∀ entry ∈ t.nodes, t.node? entry.1.dropLast = some .directory

instance (t : FileTree) : Decidable t.IsTree :=
  decidable_of_iff
    ((t.nodes.map Prod.fst).Nodup ∧
      ∀ entry ∈ t.nodes, t.node? entry.1.dropLast = some .directory)
    ⟨fun h => ⟨h.1, h.2⟩, fun h => ⟨h.nodup, h.parent⟩⟩

theorem isSome_lookup_iff : (t.nodes.lookup place).isSome ↔ place ∈ t.nodes.map Prod.fst := by
  rw [List.lookup_isSome_iff, List.mem_map]
  refine exists_congr fun entry => and_congr_right fun _ => ?_
  rw [beq_iff_eq, eq_comm]

theorem mem_places_of_node? (h : t.node? place = some node) (hne : place ≠ []) :
    place ∈ t.nodes.map Prod.fst := by
  rw [node?, if_neg hne] at h
  rw [← isSome_lookup_iff, h, Option.isSome_some]

theorem node?_ne_none_iff (hne : place ≠ []) :
    t.node? place ≠ none ↔ place ∈ t.nodes.map Prod.fst := by
  rw [node?, if_neg hne, ← isSome_lookup_iff, Option.isSome_iff_ne_none]

theorem IsTree.parent_of_node? (h : t.IsTree) (hnode : t.node? place = some node) :
    t.node? place.dropLast = some .directory := by
  by_cases hne : place = []
  · rw [hne]
    rfl
  · obtain ⟨entry, hmem, rfl⟩ := List.mem_map.1 (mem_places_of_node? hnode hne)
    exact h.parent entry hmem

/-- Nothing lies beneath a place that is no directory. -/
theorem IsTree.node?_beneath (h : t.IsTree) (hplace : t.node? place ≠ some .directory)
    {rest : Location} (hrest : rest ≠ []) : t.node? (place ++ rest) = none := by
  induction rest using List.reverseRecOn with
  | nil => exact absurd rfl hrest
  | append_singleton front name ih =>
      by_contra hfound
      obtain ⟨node, hnode⟩ := Option.ne_none_iff_exists'.1 hfound
      have hparent := h.parent_of_node? hnode
      rw [← List.append_assoc, List.dropLast_concat] at hparent
      by_cases hfront : front = []
      · rw [hfront, List.append_nil] at hparent
        exact hplace hparent
      · rw [ih hfront] at hparent
        cases hparent

/-! ## Names in a directory -/

theorem mem_namesAt_iff {name : String} :
    name ∈ t.namesAt place ↔ t.node? (place ++ [name]) ≠ none := by
  rw [node?_ne_none_iff (by simp), namesAt, List.mem_filterMap, List.mem_map]
  refine exists_congr fun entry => and_congr_right fun _ => ?_
  rw [Option.ite_none_right_eq_some]
  constructor
  · rintro ⟨rfl, hlast⟩
    exact (List.dropLast_append_getLast? _ hlast).symm
  · intro hentry
    rw [hentry, List.dropLast_concat, List.getLast?_concat]
    exact ⟨rfl, rfl⟩

theorem IsTree.nodup_namesAt (h : t.IsTree) (place : Location) : (t.namesAt place).Nodup := by
  have hnames : t.namesAt place = (t.nodes.map Prod.fst).filterMap fun here =>
      if here.dropLast = place then here.getLast? else none := by
    rw [List.filterMap_map]
    rfl
  rw [hnames]
  refine h.nodup.filterMap fun first second name hfirst hsecond => ?_
  rw [Option.mem_def, Option.ite_none_right_eq_some] at hfirst hsecond
  rw [← List.dropLast_append_getLast? _ hfirst.2, ← List.dropLast_append_getLast? _ hsecond.2,
    hfirst.1, hsecond.1]

/-! ## New nodes -/

theorem node?_put (t : FileTree) {place : Location} (hne : place ≠ []) (node : FileNode)
    (other : Location) :
    (t.put place node).node? other = if other = place then some node else t.node? other := by
  by_cases hother : other = place
  · rw [if_pos hother, hother, node?_put_self t hne]
  · rw [if_neg hother, node?_put_of_ne t hother]

theorem places_put (t : FileTree) (place : Location) (node : FileNode) :
    (t.put place node).nodes.map Prod.fst =
      if place ∈ t.nodes.map Prod.fst then t.nodes.map Prod.fst
      else place :: t.nodes.map Prod.fst := by
  rw [put]
  by_cases hfound : (t.nodes.lookup place).isSome
  · rw [if_pos hfound, if_pos (isSome_lookup_iff.1 hfound), List.map_map]
    refine List.map_congr_left fun entry _ => ?_
    rw [Function.comp_apply]
    split
    · next heq => exact heq.symm
    · rfl
  · rw [if_neg hfound, if_neg fun h => hfound (isSome_lookup_iff.2 h), List.map_cons]

theorem mem_places_put {other : Location}
    (h : other ∈ (t.put place node).nodes.map Prod.fst) :
    other = place ∨ other ∈ t.nodes.map Prod.fst := by
  rw [places_put] at h
  split at h
  · exact .inr h
  · exact List.mem_cons.1 h

theorem node?_put_eq_directory (hnode : t.node? place = some .directory → node = .directory)
    {other : Location} (hother : t.node? other = some .directory) :
    (t.put place node).node? other = some .directory := by
  by_cases hne : other = []
  · rw [hne]
    rfl
  by_cases hsame : other = place
  · subst hsame
    rw [node?_put_self t hne, hnode hother]
  · rw [node?_put_of_ne t hsame, hother]

/-- A node in a directory that is there keeps a tree one, unless it takes a directory's place. -/
theorem IsTree.put (h : t.IsTree) (hparent : t.node? place.dropLast = some .directory)
    (hnode : t.node? place = some .directory → node = .directory) : (t.put place node).IsTree := by
  constructor
  · rw [places_put]
    split
    · exact h.nodup
    · next hnew => exact List.nodup_cons.2 ⟨hnew, h.nodup⟩
  · intro entry hmem
    apply node?_put_eq_directory hnode
    rcases mem_places_put (List.mem_map_of_mem hmem) with hplace | hplace
    · rwa [hplace]
    · obtain ⟨old, hold, hsame⟩ := List.mem_map.1 hplace
      rw [← hsame]
      exact h.parent old hold

/-! ## What is kept -/

/-- Nothing of the tree is lost or changed, and later refusals are those of before. -/
structure Keeps (t later : FileTree) : Prop where
  workDirectory : later.workDirectory = t.workDirectory
  refuses : later.refuses = t.refuses
  hides : later.hides = t.hides
  node? : ∀ {place : Location} {node : FileNode}, t.node? place = some node →
    later.node? place = some node

theorem Keeps.refl (t : FileTree) : Keeps t t := ⟨rfl, rfl, rfl, fun h => h⟩

theorem Keeps.trans {latest : FileTree} (h : Keeps t later) (h' : Keeps later latest) :
    Keeps t latest :=
  ⟨h'.workDirectory.trans h.workDirectory, h'.refuses.trans h.refuses, h'.hides.trans h.hides,
    fun hnode => h'.node? (h.node? hnode)⟩

theorem Keeps.keepsDirectories (h : Keeps t later) : KeepsDirectories t later :=
  ⟨h.workDirectory, fun _ hplace => h.node? hplace⟩

theorem Keeps.node?_eq_none (h : Keeps t later) (hlater : later.node? place = none) :
    t.node? place = none := by
  cases hnode : t.node? place with
  | none => rfl
  | some node => exact (h.node? hnode).symm.trans hlater

theorem keeps_put (h : t.node? place = none) (node : FileNode) : Keeps t (t.put place node) := by
  refine ⟨workDirectory_put .., refuses_put .., hides_put .., fun {other old} hother => ?_⟩
  have hne : other ≠ place := by
    rintro rfl
    rw [h] at hother
    cases hother
  rw [node?_put_of_ne t hne, hother]

/-- A path leads where it led, and what is there and beneath it is as it was. -/
structure Spares (root : Path) (t later : FileTree) : Prop where
  isTree : t.IsTree → later.IsTree
  workDirectory : later.workDirectory = t.workDirectory
  opens : t.Opens root → later.Opens root
  node? : ∀ rest, later.node? (t.placeOf root ++ rest) = t.node? (t.placeOf root ++ rest)

theorem Spares.refl (root : Path) (t : FileTree) : Spares root t t :=
  ⟨fun h => h, rfl, fun h => h, fun _ => rfl⟩

theorem Spares.trans {root : Path} {latest : FileTree} (h : Spares root t later)
    (h' : Spares root later latest) : Spares root t latest := by
  refine ⟨fun htree => h'.isTree (h.isTree htree), h'.workDirectory.trans h.workDirectory,
    fun hopens => h'.opens (h.opens hopens), fun rest => ?_⟩
  rw [← h.node?, ← placeOf_congr h.workDirectory]
  exact h'.node? rest

/-- Trees with the same nodes at all places, which lead and refuse alike. -/
structure Same (t later : FileTree) : Prop where
  workDirectory : later.workDirectory = t.workDirectory
  refuses : later.refuses = t.refuses
  hides : later.hides = t.hides
  node? : ∀ place, later.node? place = t.node? place

namespace Same

theorem step (h : Same t later) (place : Location) (piece : String) :
    later.step place piece = t.step place piece := by
  simp only [FileTree.step, h.node?]

theorem walk (h : Same t later) (place : Location) (pieces : List String) :
    later.walk place pieces = t.walk place pieces := by
  induction pieces generalizing place with
  | nil => rfl
  | cons piece rest ih => simp only [FileTree.walk, h.step, ih]

theorem locate (h : Same t later) (path : Path) : later.locate path = t.locate path := by
  simp only [FileTree.locate, FileTree.base, h.workDirectory, h.walk]

theorem isFile (h : Same t later) (path : Path) : later.isFile path = t.isFile path := by
  simp only [FileTree.isFile, h.locate, h.node?]

theorem isDirectory (h : Same t later) (path : Path) :
    later.isDirectory path = t.isDirectory path := by
  simp only [FileTree.isDirectory, h.locate, h.node?]

theorem readText (h : Same t later) (path : Path) : later.readText path = t.readText path := by
  simp only [FileTree.readText, FileTree.readBytes, h.locate, h.node?, h.hides]

/-- The same names are listed, though not always in the same order. -/
theorem perm_namesAt (h : Same t later) (htree : t.IsTree) (hlater : later.IsTree)
    (place : Location) : (later.namesAt place).Perm (t.namesAt place) := by
  rw [List.perm_ext_iff_of_nodup (hlater.nodup_namesAt place) (htree.nodup_namesAt place)]
  intro name
  rw [mem_namesAt_iff, mem_namesAt_iff, h.node?]

end Same

theorem lookup_eq_some_iff_mem {nodes : List (Location × FileNode)}
    (h : (nodes.map Prod.fst).Nodup) : nodes.lookup place = some node ↔ (place, node) ∈ nodes := by
  rw [List.lookup_eq_some_iff]
  constructor
  · rintro ⟨before, later, rfl, -⟩
    exact List.mem_append_right _ List.mem_cons_self
  · intro hmem
    obtain ⟨before, later, rfl⟩ := List.append_of_mem hmem
    refine ⟨before, later, rfl, fun entry hentry => ?_⟩
    rw [List.map_append, List.map_cons, List.nodup_middle, List.nodup_cons] at h
    have hkey : entry.1 ∈ before.map Prod.fst := List.mem_map_of_mem hentry
    rw [bne_iff_ne]
    rintro rfl
    exact h.1 (List.mem_append_left _ hkey)

/-- The tree with its table turned round. -/
def turned (t : FileTree) : FileTree := { t with nodes := t.nodes.reverse }

theorem IsTree.same_turned (h : t.IsTree) : t.Same t.turned := by
  refine ⟨rfl, rfl, rfl, fun place => ?_⟩
  have hreverse : (t.nodes.reverse.map Prod.fst).Nodup := by
    rw [List.map_reverse, List.nodup_reverse]
    exact h.nodup
  have hlookup : t.nodes.reverse.lookup place = t.nodes.lookup place := by
    ext node
    rw [lookup_eq_some_iff_mem hreverse, lookup_eq_some_iff_mem h.nodup, List.mem_reverse]
  simp only [FileTree.node?, turned, hlookup]

theorem IsTree.turned (h : t.IsTree) : t.turned.IsTree := by
  constructor
  · rw [FileTree.turned, List.map_reverse, List.nodup_reverse]
    exact h.nodup
  · intro entry hmem
    rw [h.same_turned.node?]
    exact h.parent entry (List.mem_reverse.1 hmem)

theorem namesAt_turned (t : FileTree) (place : Location) :
    t.turned.namesAt place = (t.namesAt place).reverse :=
  List.filterMap_reverse

end SqlScript.FileTree
