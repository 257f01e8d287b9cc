import SqlScript.Proofs.Archive.ReadBack
import SqlScript.Proofs.Files.Lineage

/-!
# Trails of batches

Batches that are archived under a root, one after another, while the root is otherwise left alone.
In the end the root has an entry for each of them, with the texts of that batch and nothing else in
it, and no other entry is new but what was made on the way to a root that was not there (`Trailed`).
-/

namespace SqlScript.Archive

open FileTree

/-- These entries of a root were made for batches with these texts, in this order. -/
structure Trailed (t : FileTree) (root : Path) (trail : List (List String × Batch))
    (last : FileTree) (names : List String) : Prop where
  isName : ∀ name ∈ names, Path.IsName name
  nodup : names.Nodup
  vacant : ∀ name ∈ names, t.node? (t.placeOf root ++ [name]) = none
  directories : (trail.map fun entry => entry.2.directory) = names.map root.join
  holds : List.Forall₂ (fun name entry => Holds last (t.placeOf root ++ [name]) entry.1) names trail
  rest : ∀ rest, (∀ name ∈ names, ¬ [name] <+: rest) →
    last.node? (t.placeOf root ++ rest) = t.node? (t.placeOf root ++ rest) ∨
    (¬ t.Opens root ∧ names ≠ [] ∧ NewDirectory t root.lineage last (t.placeOf root ++ rest))

variable {t before after last : FileTree} {root : Path} {texts : List String} {batch : Batch}
  {name : String} {names : List String} {trail : List (List String × Batch)}

theorem Holds.congr {place : Location} (h : Holds t place texts)
    (hsame : ∀ rest, last.node? (place ++ rest) = t.node? (place ++ rest)) : Holds last place texts := by
  have hplace := hsame []
  rw [List.append_nil] at hplace
  exact ⟨hplace.trans h.directory, fun n text hget => (hsame _).trans (h.file n text hget),
    fun rest hrest hfound => h.only rest hrest (hsame rest ▸ hfound)⟩

namespace Trailed

theorem nil (h : Spares root t last) : Trailed t root [] last [] :=
  ⟨fun _ hmem => absurd hmem List.not_mem_nil, List.nodup_nil,
    fun _ hmem => absurd hmem List.not_mem_nil, rfl, .nil, fun rest _ => .inl (h.node? rest)⟩

/-- A batch goes before those that are archived once it is there. -/
theorem cons (hspares : Spares root t before)
    (harchived : Archived before root texts batch after name)
    (h : Trailed after root trail last names) :
    Trailed t root ((texts, batch) :: trail) last (name :: names) := by
  have hbefore : before.placeOf root = t.placeOf root :=
    placeOf_congr hspares.workDirectory root
  have hafter : after.placeOf root = t.placeOf root :=
    (placeOf_congr harchived.keeps.workDirectory root).trans hbefore
  obtain ⟨hisName, hdirectory, hopens, -, -, hvacant, hholds, hkeeps, hnew⟩ := harchived
  obtain ⟨hnames, hnodup, hlater, hdirectories, hothers, hrest⟩ := h
  rw [hbefore] at hvacant hholds hnew
  rw [hafter] at hlater hothers hrest
  have hnotMem : name ∉ names := fun hmem => by
    cases hholds.directory.symm.trans (hlater name hmem)
  have hstart {rest : Location} (hnone : after.node? (t.placeOf root ++ rest) = none) :
      t.node? (t.placeOf root ++ rest) = none := by
    rw [← hspares.node?]
    exact hkeeps.node?_eq_none hnone
  refine ⟨List.forall_mem_cons.2 ⟨hisName, hnames⟩, List.nodup_cons.2 ⟨hnotMem, hnodup⟩,
    List.forall_mem_cons.2 ⟨?_, fun other hother => hstart (hlater other hother)⟩, ?_, ?_, ?_⟩
  · rw [← hspares.node?]
    exact hvacant
  · rw [List.map_cons, List.map_cons, hdirectories, hdirectory]
  · refine .cons (hholds.congr fun rest => ?_) hothers
    rw [List.append_assoc]
    -- The root is there by now, and later batches have entries of their own.
    refine (hrest _ fun other hother hbelow => ?_).resolve_right fun hmade => hmade.1 hopens
    rw [List.singleton_append, List.cons_prefix_cons] at hbelow
    exact hnotMem (hbelow.1 ▸ hother)
  · intro rest hnone
    obtain ⟨hname, hnames⟩ := List.forall_mem_cons.1 hnone
    have hlast := (hrest rest hnames).resolve_right fun hmade => hmade.1 hopens
    rw [hlast, ← hspares.node?]
    refine (hnew (t.placeOf root ++ rest) ?_).imp_right ?_
    · rwa [List.prefix_append_right_inj]
    · rintro ⟨hmissing, hvacant, hmade, path, hpath, hplace⟩
      rw [placeOf_congr hspares.workDirectory] at hplace
      exact ⟨fun hfound => hmissing (hspares.opens hfound), List.cons_ne_nil _ _,
        (hspares.node? rest).symm.trans hvacant, hlast.trans hmade, path, hpath, hplace⟩

/-- A root without double dots in its path gets no entry but those of the trail. -/
theorem node?_of_notMem (h : Trailed t root trail last names) (hdots : ".." ∉ root.pieces)
    {rest : Location} (hne : rest ≠ []) (hnone : ∀ name ∈ names, ¬ [name] <+: rest) :
    last.node? (t.placeOf root ++ rest) = t.node? (t.placeOf root ++ rest) := by
  refine (h.rest rest hnone).resolve_right ?_
  rintro ⟨-, -, -, -, path, hpath, hplace⟩
  have hbelow : t.placeOf path <+: t.placeOf root := placeOf_prefix_of_mem_lineage hdots hpath
  have hlength := hbelow.length_le
  rw [← hplace, List.length_append] at hlength
  exact hne (List.length_eq_zero_iff.1 (by omega))

/-- The trail of an archiver whose files are left alone from the start on. -/
theorem exists_of_archive {a : Archiver} {failed : List Statement} {label : String}
    {moment : Timestamp} (hspares : Spares a.root t before) (htree : t.IsTree)
    (harchive : a.archive failed label moment before = (.ok batch, after))
    (hlater : after.IsTree → ∃ names, Trailed after a.root trail last names) :
    ∃ names, Trailed t a.root ((failed.map Statement.text, batch) :: trail) last names := by
  have hmay := a.mayArchive_archive failed label moment before
  rw [harchive] at hmay
  have hfiled := filed_of_mayArchive hmay
  obtain ⟨name, harchived⟩ := hfiled.archived (hspares.isTree htree)
  obtain ⟨names, htrailed⟩ := hlater (hfiled.isTree (hspares.isTree htree))
  exact ⟨name :: names, cons hspares harchived htrailed⟩

end Trailed

end SqlScript.Archive
