import SqlScript.Archive

/-!
# Archiving by a pool of workers

What a pool of workers may make of the files of a batch. It takes them in an order of its own, and
it leaves some of them only if it failed on another one. Writing one after another is one of the
things that a pool may do (`poolRun_writeJobs`), and with it `Archiver.archive` is one of the ways
in which an archive may be made in either mode (`mayArchive_archive`).
-/

namespace SqlScript

namespace Archive

/-- Attempts jobs in turn, also after one that failed: the errors, and what files are left. -/
def attemptJobs (t : FileTree) : List Job → List ScriptError × FileTree
  | [] => ([], t)
  | job :: rest =>
      match t.writeText job.path job.text with
      | .error e => (.archive job.path e :: (attemptJobs t rest).1, (attemptJobs t rest).2)
      | .ok after => attemptJobs after rest

/-- What may come of jobs that a pool of workers takes. -/
inductive PoolRun (t : FileTree) (todo : List Job) : Except ScriptError Unit × FileTree → Prop
  | done {order : List Job} (all : order.Perm todo) (clean : (attemptJobs t order).1 = []) :
      PoolRun t todo (.ok (), (attemptJobs t order).2)
  /-- A job failed. Others that were under way went on, and some may have been left. -/
  | stopped {order left : List Job} {e : ScriptError} (all : (order ++ left).Perm todo)
      (failed : e ∈ (attemptJobs t order).1) :
      PoolRun t todo (.error e, (attemptJobs t order).2)

/-- What may come of writing the files of a batch. -/
def Mode.MayWrite (t : FileTree) (todo : List Job) (result : Except ScriptError Unit × FileTree) :
    Mode → Prop
  | .sequential => result = writeJobs t todo
  | .parallel => PoolRun t todo result

theorem exists_stopped_of_writeJobs_error {t after : FileTree} {todo : List Job}
    {e : ScriptError} (h : writeJobs t todo = (.error e, after)) :
    ∃ order left, order ++ left = todo ∧ e ∈ (attemptJobs t order).1 ∧
      (attemptJobs t order).2 = after := by
  induction todo generalizing t with
  | nil => simp [writeJobs] at h
  | cons job rest ih =>
    simp only [writeJobs] at h
    split at h
    · rename_i cause hw
      simp only [Prod.mk.injEq, Except.error.injEq] at h
      obtain ⟨rfl, rfl⟩ := h
      exact ⟨[job], rest, rfl, by simp [attemptJobs, hw], by simp [attemptJobs, hw]⟩
    · rename_i written hw
      obtain ⟨order, left, rfl, he, ht⟩ := ih h
      exact ⟨job :: order, left, rfl, by simpa [attemptJobs, hw] using he,
        by simpa [attemptJobs, hw] using ht⟩

theorem clean_of_writeJobs_ok {t after : FileTree} {todo : List Job}
    (h : writeJobs t todo = (.ok (), after)) : attemptJobs t todo = ([], after) := by
  induction todo generalizing t with
  | nil => simpa [writeJobs, attemptJobs] using h
  | cons job rest ih =>
    simp only [writeJobs, attemptJobs] at *
    split <;> simp_all

/-- A pool may do the jobs one after another. -/
theorem poolRun_writeJobs (t : FileTree) (todo : List Job) : PoolRun t todo (writeJobs t todo) := by
  rcases hw : writeJobs t todo with ⟨result, after⟩
  cases result with
  | ok _ =>
    have h := clean_of_writeJobs_ok hw
    have := PoolRun.done (t := t) (List.Perm.refl todo) (by rw [h])
    rwa [h] at this
  | error e =>
    obtain ⟨order, left, rfl, he, rfl⟩ := exists_stopped_of_writeJobs_error hw
    exact .stopped (List.Perm.refl _) he

theorem mayWrite_writeJobs (mode : Mode) (t : FileTree) (todo : List Job) :
    mode.MayWrite t todo (writeJobs t todo) := by
  cases mode with
  | sequential => rfl
  | parallel => exact poolRun_writeJobs t todo

end Archive

/-- What may come of archiving failed statements. -/
def Archiver.MayArchive (a : Archiver) (failed : List Statement) (label : String)
    (moment : Timestamp) (t : FileTree)
    (result : Except ScriptError Archive.Batch × FileTree) : Prop :=
  match Archive.makeBatchDirectory t a.root label moment with
  | (.error e, t) => result = (.error e, t)
  | (.ok directory, t) =>
      ∃ done, a.mode.MayWrite t (Archive.jobs directory failed) done ∧
        result = Archive.written directory failed.length done

/-- Archiving in numeric order is possible in either mode. -/
theorem Archiver.mayArchive_archive (a : Archiver) (failed : List Statement) (label : String)
    (moment : Timestamp) (t : FileTree) :
    a.MayArchive failed label moment t (a.archive failed label moment t) := by
  unfold MayArchive archive
  rcases Archive.makeBatchDirectory t a.root label moment with ⟨made, t⟩
  cases made with
  | error e => rfl
  | ok directory => exact ⟨_, Archive.mayWrite_writeJobs _ _ _, rfl⟩

end SqlScript
