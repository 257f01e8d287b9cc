import SqlScript.Proofs.Archive.Attempts
import SqlScript.Proofs.Archive.Directory

/-!
# Filed batches

All that may come of archiving failed statements, in either mode: the directory could not be made,
or all of its files were written, or the pool failed on one of them (`Filed`). In a tree nothing
that was there is lost or changed, whatever comes of it.
-/

namespace SqlScript.Archive

open FileTree

variable {t made : FileTree} {root directory : Path} {failed : List Statement} {label name : String}
  {moment : Timestamp} {result : Except ScriptError Batch × FileTree}

/-! ## The jobs of a batch -/

theorem mem_jobs_iff {job : Job} :
    job ∈ jobs directory failed ↔
      ∃ n s, failed[n]? = some s ∧ job = ⟨directory.join (fileName n), s.text⟩ := by
  rw [jobs, List.mem_map]
  constructor
  · rintro ⟨⟨s, n⟩, hmem, rfl⟩
    exact ⟨n, s, List.mem_zipIdx_iff_getElem?.1 hmem, rfl⟩
  · rintro ⟨n, s, hget, rfl⟩
    exact ⟨(s, n), List.mem_zipIdx_iff_getElem?.2 hget, rfl⟩

theorem map_path_jobs (directory : Path) (failed : List Statement) :
    (jobs directory failed).map Job.path =
      (List.range failed.length).map fun n => directory.join (fileName n) := by
  rw [List.range_eq_range', ← List.zipIdx_map_snd 0 failed, jobs, List.map_map, List.map_map]
  rfl

theorem inDirectory_jobs (h : t.Opens directory) (failed : List Statement) :
    InDirectory t directory (jobs directory failed) := by
  refine ⟨h, fun job hmem => ?_, ?_⟩
  · obtain ⟨n, s, -, rfl⟩ := mem_jobs_iff.1 hmem
    exact ⟨fileName n, isName_fileName n, rfl⟩
  · rw [map_path_jobs]
    exact List.nodup_range.map fun _ _ h => fileName_inj (Path.join_inj h)

/-- Files in a directory that was just made are at vacant places. -/
theorem Founded.vacant_of_mem_jobs (h : Founded t root directory made name) (htree : t.IsTree)
    {job : Job} (hjob : job ∈ jobs directory failed) :
    made.node? (made.placeOf job.path) = none := by
  obtain ⟨n, s, -, rfl⟩ := mem_jobs_iff.1 hjob
  rw [placeOf_join made directory (isName_fileName n), h.placeOf_eq]
  exact h.beneath htree (List.cons_ne_nil _ _)

/-- The files of a batch lie in its directory, and all else is as the directory was made. -/
theorem Founded.new_of_attempted {after : FileTree} {tried : List Job}
    (h : Founded t root directory made name) (hsubset : tried ⊆ jobs directory failed)
    (hattempted : Attempted made tried after) {place : Location}
    (hplace : ¬ t.placeOf root ++ [name] <+: place) : after.node? place = t.node? place ∨
      (¬ t.Opens root ∧ NewDirectory t root.lineage after place) := by
  have hsame : after.node? place = made.node? place := by
    apply hattempted.other
    rintro job hjob - rfl
    obtain ⟨n, s, -, rfl⟩ := mem_jobs_iff.1 (hsubset hjob)
    rw [placeOf_join made _ (isName_fileName n), h.placeOf_eq] at hplace
    exact hplace (List.prefix_append _ _)
  refine (h.new place fun heq => hplace (heq ▸ List.prefix_refl _)).imp hsame.trans ?_
  rintro ⟨hopens, hvacant, hmade, hnamed⟩
  exact ⟨hopens, hvacant, hsame.trans hmade, hnamed⟩

/-! ## What may come of it -/

/-- What may come of archiving failed statements under a root. -/
inductive Filed (t : FileTree) (root : Path) (failed : List Statement) (label : String)
    (moment : Timestamp) : Except ScriptError Batch × FileTree → Prop
  | unfounded {e : ScriptError} {after : FileTree}
      (founding : makeBatchDirectory t root label moment = (.error e, after)) :
      Filed t root failed label moment (.error e, after)
  | complete {directory : Path} {made after : FileTree} {name : String}
      (founding : makeBatchDirectory t root label moment = (.ok directory, made))
      (founded : Founded t root directory made name)
      (clean : ∀ job ∈ jobs directory failed, made.writeFault? job.path = none)
      (attempted : Attempted made (jobs directory failed) after) :
      Filed t root failed label moment (.ok ⟨directory, entries directory failed.length⟩, after)
  | broken {directory : Path} {made after : FileTree} {name : String} {job : Job}
      {cause : FileError} {tried : List Job}
      (founding : makeBatchDirectory t root label moment = (.ok directory, made))
      (founded : Founded t root directory made name)
      (mem : job ∈ jobs directory failed) (fault : made.writeFault? job.path = some cause)
      (subset : tried ⊆ jobs directory failed) (attempted : Attempted made tried after) :
      Filed t root failed label moment (.error (.archive job.path cause), after)

theorem filed_of_mayArchive {a : Archiver} (h : a.MayArchive failed label moment t result) :
    Filed t a.root failed label moment result := by
  unfold Archiver.MayArchive at h
  rcases hmade : makeBatchDirectory t a.root label moment with ⟨answer, made⟩
  rw [hmade] at h
  cases answer with
  | error e =>
      rw [h]
      exact .unfounded hmade
  | ok directory =>
      obtain ⟨⟨answer, after⟩, hwrite, rfl⟩ := h
      obtain ⟨name, hfounded⟩ := exists_founded hmade
      cases finished_of_poolRun (poolRun_of_mayWrite hwrite)
          (inDirectory_jobs hfounded.opens failed) with
      | done ok clean attempted =>
          cases ok
          exact .complete hmade hfounded clean attempted
      | failed mem fault error subset attempted =>
          cases error
          exact .broken hmade hfounded mem fault subset attempted

theorem Filed.isTree (h : Filed t root failed label moment result) (htree : t.IsTree) :
    result.2.IsTree := by
  cases h with
  | unfounded founding => exact (addsDirectories_of_makeBatchDirectory_error founding).isTree htree
  | complete founding founded clean attempted => exact attempted.isTree (founded.isTree htree)
  | broken founding founded mem fault subset attempted =>
      exact attempted.isTree (founded.isTree htree)

/-- Nothing is lost or changed by archiving, whether or not it succeeds. -/
theorem Filed.keeps (h : Filed t root failed label moment result) (htree : t.IsTree) :
    t.Keeps result.2 := by
  cases h with
  | unfounded founding => exact (addsDirectories_of_makeBatchDirectory_error founding).keeps
  | complete founding founded clean attempted =>
      exact founded.keeps.trans (attempted.keeps fun job hjob => founded.vacant_of_mem_jobs htree hjob)
  | broken founding founded mem fault subset attempted =>
      exact founded.keeps.trans
        (attempted.keeps fun job hjob => founded.vacant_of_mem_jobs htree (subset hjob))

/-- What cannot be read does not depend on what is archived. -/
theorem Filed.hides_eq (h : Filed t root failed label moment result) :
    result.2.hides = t.hides := by
  cases h with
  | unfounded founding => exact (addsDirectories_of_makeBatchDirectory_error founding).keeps.hides
  | complete founding founded clean attempted => exact attempted.hides.trans founded.keeps.hides
  | broken founding founded mem fault subset attempted =>
      exact attempted.hides.trans founded.keeps.hides

/-- A directory that was made stays one, also if a file of it could not be written. -/
theorem Filed.exists_founded (h : Filed t root failed label moment result)
    (hmade : (makeBatchDirectory t root label moment).1 = .ok directory) :
    ∃ made name, Founded t root directory made name ∧ KeepsDirectories made result.2 := by
  cases h with
  | unfounded founding => cases hmade.symm.trans (congrArg Prod.fst founding)
  | complete founding founded clean attempted =>
      cases hmade.symm.trans (congrArg Prod.fst founding)
      exact ⟨_, _, founded, attempted.keepsDirectories⟩
  | broken founding founded mem fault subset attempted =>
      cases hmade.symm.trans (congrArg Prod.fst founding)
      exact ⟨_, _, founded, attempted.keepsDirectories⟩

theorem Filed.directory_eq {batch : Batch} {after : FileTree}
    (h : Filed t root failed label moment (.ok batch, after)) :
    (makeBatchDirectory t root label moment).1 = .ok batch.directory := by
  cases h with
  | complete founding => exact congrArg Prod.fst founding

/--
All that is new is the directory of the batch and what lies in it, and directories on the way to a
root that was not there.
-/
theorem Filed.exists_new (h : Filed t root failed label moment result) : ∃ name, ∀ place,
    ((makeBatchDirectory t root label moment).1 = .ok (root.join name) ∧
      t.node? (t.placeOf root ++ [name]) = none ∧ t.placeOf root ++ [name] <+: place) ∨
    result.2.node? place = t.node? place ∨
      (¬ t.Opens root ∧ NewDirectory t root.lineage result.2 place) := by
  cases h with
  | unfounded founding =>
      refine ⟨"", fun place => .inr ?_⟩
      by_cases hopens : t.Opens root
      · rw [eq_of_makeBatchDirectory_error hopens founding]
        exact .inl rfl
      · exact ((addsDirectories_of_makeBatchDirectory_error founding).new place).imp_right
          fun hnew => ⟨hopens, hnew⟩
  | @complete _ _ _ name founding founded clean attempted =>
      refine ⟨name, fun place => ?_⟩
      by_cases hplace : t.placeOf root ++ [name] <+: place
      · exact .inl ⟨founded.directory_eq ▸ congrArg Prod.fst founding, founded.vacant, hplace⟩
      · exact .inr (founded.new_of_attempted (List.Subset.refl _) attempted hplace)
  | @broken _ _ _ name _ _ _ founding founded mem fault subset attempted =>
      refine ⟨name, fun place => ?_⟩
      by_cases hplace : t.placeOf root ++ [name] <+: place
      · exact .inl ⟨founded.directory_eq ▸ congrArg Prod.fst founding, founded.vacant, hplace⟩
      · exact .inr (founded.new_of_attempted subset attempted hplace)

end SqlScript.Archive
