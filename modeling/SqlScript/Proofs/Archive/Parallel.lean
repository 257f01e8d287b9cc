import SqlScript.Proofs.Archive.Filed

/-!
# Parallel and sequential archives

A pool of workers archives a batch if and only if writing one file after another does, and then
both leave the same batch in the same files: `Archiver.parallel_agrees`. Otherwise each names
something that could not be made or written.
-/

namespace SqlScript

namespace Archive

open FileTree

variable {t : FileTree} {root : Path} {failed : List Statement} {label : String}
  {moment : Timestamp} {result : Except ScriptError Batch × FileTree}

/-- What an error of an archive names: what could not be made, or a file that cannot be written. -/
inductive Unfiled (t : FileTree) (root : Path) (failed : List Statement) (label : String)
    (moment : Timestamp) : ScriptError → Prop
  | unmade {e : ScriptError} (fault : Unmade t root label moment e) :
      Unfiled t root failed label moment e
  | unwritten {directory : Path} {made : FileTree} {job : Job} {cause : FileError}
      (founding : makeBatchDirectory t root label moment = (.ok directory, made))
      (mem : job ∈ jobs directory failed)
      (fault : made.writeText job.path job.text = .error cause) :
      Unfiled t root failed label moment (.archive job.path cause)

namespace Filed

theorem unfiled (h : Filed t root failed label moment result) (hrefuses : t.RefusesSoundly)
    {e : ScriptError} (herror : result.1 = .error e) : Unfiled t root failed label moment e := by
  cases h with
  | unfounded founding =>
      cases herror
      exact .unmade (unmade_of_makeBatchDirectory hrefuses founding)
  | complete => cases herror
  | broken founding founded mem fault =>
      cases herror
      refine .unwritten founding mem ?_
      rw [writeText_eq, fault]

/-- Whether a batch is archived depends on its files one by one, and on no order. -/
theorem isOk_iff (h : Filed t root failed label moment result) :
    result.1.isOk ↔ ∃ directory made,
      makeBatchDirectory t root label moment = (.ok directory, made) ∧
      ∀ job ∈ jobs directory failed, made.writeFault? job.path = none := by
  cases h with
  | unfounded founding =>
      refine ⟨fun hok => Bool.noConfusion hok, ?_⟩
      rintro ⟨directory, made, hfounding, -⟩
      cases founding.symm.trans hfounding
  | complete founding founded clean => exact ⟨fun _ => ⟨_, _, founding, clean⟩, fun _ => rfl⟩
  | broken founding founded mem fault =>
      refine ⟨fun hok => Bool.noConfusion hok, ?_⟩
      rintro ⟨directory, made, hfounding, hclean⟩
      cases founding.symm.trans hfounding
      cases (hclean _ mem).symm.trans fault

theorem same {batch other : Batch} {after later : FileTree}
    (h : Filed t root failed label moment (.ok batch, after))
    (h' : Filed t root failed label moment (.ok other, later)) :
    batch = other ∧ Same after later := by
  cases h with
  | complete founding founded clean attempted =>
      cases h' with
      | complete founding' founded' clean' attempted' =>
          cases founding.symm.trans founding'
          exact ⟨rfl, attempted.same attempted' (.refl _)⟩

end Filed

/-- A pool may write the files of a batch in any order. -/
theorem mayArchive_of_perm (t : FileTree) (root : Path) (failed : List Statement) (label : String)
    (moment : Timestamp) {directory : Path} {order : List Job}
    (hmade : (makeBatchDirectory t root label moment).1 = .ok directory)
    (hperm : order.Perm (jobs directory failed))
    (hclean : (attemptJobs (makeBatchDirectory t root label moment).2 order).1 = []) :
    (⟨root, .parallel⟩ : Archiver).MayArchive failed label moment t
      (.ok ⟨directory, entries directory failed.length⟩,
        (attemptJobs (makeBatchDirectory t root label moment).2 order).2) := by
  unfold Archiver.MayArchive
  rcases hfound : makeBatchDirectory t root label moment with ⟨answer, made⟩
  rw [hfound] at hmade hclean
  obtain rfl : answer = .ok directory := hmade
  exact ⟨_, .done hperm hclean, rfl⟩

end Archive

namespace Archiver

open Archive FileTree

/--
Whatever order a pool of workers takes, it archives a batch if and only if writing the files in turn
does, with the same batch in the same files. An error names what could not be made or written.
-/
theorem parallel_agrees {t : FileTree} {root : Path} {failed : List Statement} {label : String}
    {moment : Timestamp} {result : Except ScriptError Batch × FileTree}
    (h : (⟨root, .parallel⟩ : Archiver).MayArchive failed label moment t result) :
    (result.1.isOk ↔ ((⟨root, .sequential⟩ : Archiver).archive failed label moment t).1.isOk) ∧
    (∀ batch, result.1 = .ok batch →
      ((⟨root, .sequential⟩ : Archiver).archive failed label moment t).1 = .ok batch ∧
      Same result.2 ((⟨root, .sequential⟩ : Archiver).archive failed label moment t).2) ∧
    (t.RefusesSoundly → ∀ e, result.1 = .error e ∨
        ((⟨root, .sequential⟩ : Archiver).archive failed label moment t).1 = .error e →
      Unfiled t root failed label moment e) := by
  have hfiled := filed_of_mayArchive h
  have hsequential := filed_of_mayArchive
    ((⟨root, .sequential⟩ : Archiver).mayArchive_archive failed label moment t)
  have hiff := hfiled.isOk_iff.trans hsequential.isOk_iff.symm
  refine ⟨hiff, fun batch hbatch => ?_, fun hrefuses e herror => ?_⟩
  · rcases hother : (⟨root, .sequential⟩ : Archiver).archive failed label moment t with
      ⟨answer, later⟩
    obtain ⟨answer', after⟩ := result
    obtain rfl : answer' = .ok batch := hbatch
    rw [hother] at hsequential hiff
    cases answer with
    | error e => exact absurd (hiff.1 rfl) Bool.false_ne_true
    | ok other =>
        obtain ⟨rfl, hsame⟩ := hfiled.same hsequential
        exact ⟨rfl, hsame⟩
  · exact herror.elim (hfiled.unfiled hrefuses) (hsequential.unfiled hrefuses)

theorem parallel_agrees_reversed :
    let failed : List Statement := [⟨3, "B"⟩, ⟨0, "A"⟩]
    let directory : Path := ⟨"a/x_y_1970-01-01_00-00-00"⟩
    let order := (jobs directory failed).reverse
    ∃ after,
      after = (attemptJobs (makeBatchDirectory .empty ⟨"a"⟩ "x/y" (.ofSeconds 0)).2 order).2 ∧
      (⟨⟨"a"⟩, .parallel⟩ : Archiver).MayArchive failed "x/y" (.ofSeconds 0) .empty
        (.ok ⟨directory, entries directory 2⟩, after) ∧
      ((⟨⟨"a"⟩, .sequential⟩ : Archiver).archive failed "x/y" (.ofSeconds 0) .empty).1 =
        .ok ⟨directory, entries directory 2⟩ ∧
      Same after
        ((⟨⟨"a"⟩, .sequential⟩ : Archiver).archive failed "x/y" (.ofSeconds 0) .empty).2 := by
  intro failed directory order
  have hmade : (makeBatchDirectory .empty ⟨"a"⟩ "x/y" (.ofSeconds 0)).1 = .ok directory := by
    decide +kernel
  have hclean : (attemptJobs (makeBatchDirectory .empty ⟨"a"⟩ "x/y" (.ofSeconds 0)).2
      order).1 = [] := by decide +kernel
  have hrun := mayArchive_of_perm .empty ⟨"a"⟩ failed "x/y" (.ofSeconds 0) hmade
    (List.reverse_perm (jobs directory failed)) hclean
  exact ⟨_, rfl, hrun, (parallel_agrees hrun).2.1 _ rfl⟩

end Archiver

end SqlScript
