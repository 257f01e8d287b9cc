import SqlScript.Archive.Pool
import SqlScript.Proofs.Archive.Names
import SqlScript.Proofs.Files.Tree

/-!
# Attempted jobs

Whether a file of a batch can be written depends on its path alone, since the other files of the
batch are at other places of the same directory. So what attempted jobs leave is the same in every
order: the files of those that can be written, and every other place as it was (`Attempted`).
-/

namespace SqlScript.Archive

open FileTree

variable {t after later : FileTree} {directory : Path} {todo order left : List Job}
  {result : Except ScriptError Unit × FileTree}

/-- Jobs for files of different names in a directory that is there. -/
structure InDirectory (t : FileTree) (directory : Path) (todo : List Job) : Prop where
  opens : t.Opens directory
  name : ∀ job ∈ todo, ∃ name, Path.IsName name ∧ job.path = directory.join name
  nodup : (todo.map Job.path).Nodup

namespace InDirectory

theorem perm (h : InDirectory t directory todo) (hperm : order.Perm todo) :
    InDirectory t directory order :=
  ⟨h.opens, fun job hmem => h.name job (hperm.mem_iff.1 hmem),
    (hperm.map Job.path).nodup_iff.2 h.nodup⟩

theorem of_append_left (h : InDirectory t directory (order ++ left)) :
    InDirectory t directory order := by
  refine ⟨h.opens, fun job hmem => h.name job (List.mem_append_left _ hmem), ?_⟩
  have hnodup := h.nodup
  rw [List.map_append] at hnodup
  exact hnodup.of_append_left

theorem tail {job : Job} (h : InDirectory t directory (job :: todo)) :
    InDirectory t directory todo :=
  ⟨h.opens, fun other hmem => h.name other (List.mem_cons_of_mem _ hmem), (List.nodup_cons.1 h.nodup).2⟩

theorem of_keepsDirectories (h : InDirectory t directory todo) (hkeeps : KeepsDirectories t later) :
    InDirectory later directory todo :=
  ⟨h.opens.of_keepsDirectories hkeeps, h.name, h.nodup⟩

/-- The first file is at another place than the later ones. -/
theorem placeOf_ne {job other : Job} (h : InDirectory t directory (job :: todo))
    (hother : other ∈ todo) : t.placeOf other.path ≠ t.placeOf job.path := by
  intro hsame
  obtain ⟨name, hname, hpath⟩ := h.name job List.mem_cons_self
  obtain ⟨second, hsecond, hpath'⟩ := h.name other (List.mem_cons_of_mem _ hother)
  rw [hpath, hpath', placeOf_join t directory hname, placeOf_join t directory hsecond] at hsame
  have hnames : second = name := by simpa using hsame
  have hpaths : other.path = job.path := by rw [hpath, hpath', hnames]
  exact (List.nodup_cons.1 h.nodup).1 (hpaths ▸ List.mem_map_of_mem hother)

end InDirectory

/-- Why a job cannot be done, if so. -/
def fault? (t : FileTree) (job : Job) : Option ScriptError :=
  (t.writeFault? job.path).map (.archive job.path)

/-- The files of the jobs that can be done are there, and no other place has changed. -/
structure Attempted (t : FileTree) (todo : List Job) (after : FileTree) : Prop where
  keepsDirectories : KeepsDirectories t after
  refuses : after.refuses = t.refuses
  hides : after.hides = t.hides
  isTree : t.IsTree → after.IsTree
  written : ∀ job ∈ todo, t.writeFault? job.path = none →
    after.node? (t.placeOf job.path) = some (.file job.text.toUTF8)
  other : ∀ place : Location,
    (∀ job ∈ todo, t.writeFault? job.path = none → place ≠ t.placeOf job.path) →
    after.node? place = t.node? place

/-- What jobs find is not changed by a file of another name that is written before them. -/
theorem writeFault?_put {job other : Job} (h : InDirectory t directory (job :: todo))
    (hvacant : t.node? (t.placeOf job.path) ≠ some .directory) (hother : other ∈ todo)
    (content : ByteArray) :
    (t.put (t.placeOf job.path) (.file content)).writeFault? other.path =
      t.writeFault? other.path := by
  obtain ⟨name, hname, hpath⟩ := h.name other (List.mem_cons_of_mem _ hother)
  have hkeeps := keepsDirectories_put_file content hvacant
  refine writeFault?_congr ?_ (refuses_put ..) (node?_put_of_ne t (h.placeOf_ne hother) _)
  rw [hpath]
  exact hkeeps.locate_join h.opens hname

theorem attempted_attemptJobs (h : InDirectory t directory todo) :
    (attemptJobs t todo).1 = todo.filterMap (fault? t) ∧
      Attempted t todo (attemptJobs t todo).2 := by
  induction todo generalizing t with
  | nil =>
      exact ⟨rfl, .refl t, rfl, rfl, fun htree => htree, fun _ hmem => absurd hmem List.not_mem_nil,
        fun _ _ => rfl⟩
  | cons job rest ih =>
      cases hfault : t.writeFault? job.path with
      | some e =>
          obtain ⟨herrors, hrest⟩ := ih h.tail
          rw [attemptJobs, writeText_eq, hfault, List.filterMap_cons, fault?, hfault]
          refine ⟨congrArg _ herrors, hrest.keepsDirectories, hrest.refuses, hrest.hides, hrest.isTree,
            ?_, ?_⟩
          · refine List.forall_mem_cons.2 ⟨fun hnone => ?_, hrest.written⟩
            cases hfault.symm.trans hnone
          · intro place hplace
            exact hrest.other place (List.forall_mem_cons.1 hplace).2
      | none =>
          obtain ⟨-, hvacant⟩ := locate_of_writeFault? hfault
          have hkeeps := keepsDirectories_put_file job.text.toUTF8 hvacant
          obtain ⟨herrors, hrest⟩ := ih (h.tail.of_keepsDirectories hkeeps)
          have hfaults : ∀ other ∈ rest, _ = t.writeFault? other.path := fun other hother =>
            writeFault?_put h hvacant hother job.text.toUTF8
          rw [attemptJobs, writeText_eq, hfault, List.filterMap_cons, fault?, hfault]
          refine ⟨herrors.trans (List.filterMap_congr fun other hother => ?_),
            hkeeps.trans hrest.keepsDirectories, hrest.refuses.trans (refuses_put ..),
            hrest.hides.trans (hides_put ..), fun htree => hrest.isTree ?_, ?_, ?_⟩
          · rw [fault?, hfaults other hother, fault?]
          · refine htree.put ?_ fun hdirectory => absurd hdirectory hvacant
            obtain ⟨name, hname, hpath⟩ := h.name job List.mem_cons_self
            rw [hpath, placeOf_join t directory hname, List.dropLast_concat]
            exact h.opens.2
          · refine List.forall_mem_cons.2 ⟨fun _ => ?_, fun other hother hnone => ?_⟩
            · rw [hrest.other (t.placeOf job.path)]
              · exact node?_put_self t (ne_nil_of_node?_ne_directory hvacant) _
              · intro other hother _
                rw [placeOf_congr hkeeps.workDirectory]
                exact (h.placeOf_ne hother).symm
            · have hwritten := hrest.written other hother ((hfaults other hother).trans hnone)
              rwa [placeOf_congr hkeeps.workDirectory] at hwritten
          · intro place hplace
            obtain ⟨hjob, hlater⟩ := List.forall_mem_cons.1 hplace
            rw [hrest.other place, node?_put_of_ne t (hjob hfault)]
            intro other hother hnone
            rw [placeOf_congr hkeeps.workDirectory]
            exact hlater other hother ((hfaults other hother).symm.trans hnone)

/-- A place without a node gets one from a job at most, and no node is lost. -/
theorem Attempted.keeps (h : Attempted t todo after)
    (hvacant : ∀ job ∈ todo, t.node? (t.placeOf job.path) = none) : t.Keeps after := by
  refine ⟨h.keepsDirectories.workDirectory, h.refuses, h.hides, fun {place node} hnode => ?_⟩
  rw [h.other place, hnode]
  rintro job hjob - rfl
  rw [hvacant job hjob] at hnode
  cases hnode

theorem Attempted.perm (h : Attempted t order after) (hperm : order.Perm todo) :
    Attempted t todo after :=
  ⟨h.keepsDirectories, h.refuses, h.hides, h.isTree,
    fun job hjob => h.written job (hperm.mem_iff.2 hjob),
    fun place hplace => h.other place fun job hjob => hplace job (hperm.mem_iff.1 hjob)⟩

/-- The order in which jobs are attempted makes no difference. -/
theorem Attempted.same (h : Attempted t todo after) (h' : Attempted t order later)
    (hperm : order.Perm todo) : Same after later := by
  have h' := h'.perm hperm
  refine ⟨h'.keepsDirectories.workDirectory.trans h.keepsDirectories.workDirectory.symm,
    h'.refuses.trans h.refuses.symm, h'.hides.trans h.hides.symm, fun place => ?_⟩
  by_cases hwritten : ∃ job ∈ todo, t.writeFault? job.path = none ∧ place = t.placeOf job.path
  · obtain ⟨job, hjob, hnone, rfl⟩ := hwritten
    rw [h.written job hjob hnone, h'.written job hjob hnone]
  · have hplace : ∀ job ∈ todo, t.writeFault? job.path = none → place ≠ t.placeOf job.path :=
      fun job hjob hnone hsame => hwritten ⟨job, hjob, hnone, hsame⟩
    rw [h.other place hplace, h'.other place hplace]

/-! ## Runs of a pool -/

theorem poolRun_of_mayWrite {mode : Mode} (h : mode.MayWrite t todo result) :
    PoolRun t todo result := by
  cases mode with
  | sequential =>
      rw [h]
      exact poolRun_writeJobs t todo
  | parallel => exact h

/-- A pool is done with all jobs if each can be done, and otherwise it fails on one that cannot. -/
inductive Finished (t : FileTree) (todo : List Job) (result : Except ScriptError Unit × FileTree) :
    Prop
  | done (ok : result.1 = .ok ()) (clean : ∀ job ∈ todo, t.writeFault? job.path = none)
      (attempted : Attempted t todo result.2)
  | failed {job : Job} {cause : FileError} {tried : List Job} (mem : job ∈ todo)
      (fault : t.writeFault? job.path = some cause)
      (error : result.1 = .error (.archive job.path cause)) (subset : tried ⊆ todo)
      (attempted : Attempted t tried result.2)

theorem finished_of_poolRun (h : PoolRun t todo result) (hin : InDirectory t directory todo) :
    Finished t todo result := by
  cases h with
  | @done order all clean =>
      obtain ⟨herrors, hattempted⟩ := attempted_attemptJobs (hin.perm all)
      rw [clean, eq_comm, List.filterMap_eq_nil_iff] at herrors
      refine .done rfl (fun job hjob => ?_) (hattempted.perm all)
      exact Option.map_eq_none_iff.1 (herrors job (all.mem_iff.2 hjob))
  | @stopped order left e all failed =>
      obtain ⟨herrors, hattempted⟩ := attempted_attemptJobs (hin.perm all).of_append_left
      rw [herrors] at failed
      obtain ⟨job, hjob, hfault⟩ := List.mem_filterMap.1 failed
      obtain ⟨cause, hcause, rfl⟩ := Option.map_eq_some_iff.1 hfault
      have hsubset : order ⊆ todo := fun other hother =>
        all.mem_iff.1 (List.mem_append_left _ hother)
      exact .failed (hsubset hjob) hcause rfl hsubset hattempted

end SqlScript.Archive
