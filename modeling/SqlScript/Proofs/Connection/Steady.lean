import SqlScript.Connection.Resilient
import SqlScript.Connection.Scripted
import SqlScript.Pass

/-!
# Steady sessions

A scripted session that does not drop answers by what was executed before: it accepts a statement
that is not always rejected once the statement that it needs was executed. What is executed never
leaves the least set that is closed under this, whatever the order (`Scripted.Feasible`), and a pass
leaves a statement only if it was rejected by what was executed at the start.
-/

namespace SqlScript

variable {σ α : Type}

/-- A reconnecting connection that meets no fault makes one call. -/
theorem Resilient.attempt_eq_onInner (c : Connection σ) (op : Operation σ α) (retries : Nat)
    {w : World (Resilient σ)}
    (h : ∀ e, (onInner op w).1 = .error e → e.isConnectionFault = false) :
    attempt c op retries w = onInner op w := by
  cases retries with
  | zero => rfl
  | succ retries =>
      rcases hinner : onInner op w with ⟨answer, after⟩
      cases answer with
      | ok value => simp only [attempt, hinner]
      | error e =>
          have hfault := h e (by rw [hinner])
          simp only [attempt, hinner, hfault, Bool.false_eq_true, if_false]

namespace Scripted

/-- The session is up, does not drop and rejects a statement always or for what it needs. -/
structure IsSteady (s : Scripted) : Prop where
  connected : s.connected = true
  faults : s.faults = 0
  faultOn : s.faultOn = []
  failTimes : s.failTimes = []
  failError : ∀ e ∈ s.failError, e.isConnectionFault = false

/-- Whether a statement is accepted once these were executed. -/
def accepts (s : Scripted) (executed : List String) (sql : String) : Bool :=
  ! s.alwaysRejects sql && (s.requires.lookup sql).all fun needed => executed.contains needed

/-- The session is what `s` is after some calls by which these were executed. -/
def HasExecuted (s : Scripted) (executed : List String) (session : Scripted) : Prop :=
  ∃ calls, session = { s with calls, executed }

/--
The least set of those of some texts that are not always rejected and need nothing outside the set.
-/
inductive Feasible (s : Scripted) (texts : List String) : String → Prop
  | intro {sql : String} (mem : sql ∈ texts) (allowed : s.alwaysRejects sql = false)
      (needs : ∀ needed, s.requires.lookup sql = some needed → Feasible s texts needed) :
      Feasible s texts sql

variable {s : Scripted} {executed later texts : List String} {sql : String}

theorem accepts_iff : s.accepts executed sql = true ↔ s.alwaysRejects sql = false ∧
    ∀ needed, s.requires.lookup sql = some needed → needed ∈ executed := by
  rw [accepts, Bool.and_eq_true, Bool.not_eq_true', Option.all_eq_true]
  simp

theorem accepts_of_subset (hsub : executed ⊆ later) (h : s.accepts executed sql = true) :
    s.accepts later sql = true := by
  rw [accepts_iff] at *
  exact ⟨h.1, fun needed hneeded => hsub (h.2 needed hneeded)⟩

theorem Feasible.of_accepts (hmem : sql ∈ texts)
    (hexecuted : ∀ text ∈ executed, s.Feasible texts text)
    (h : s.accepts executed sql = true) : s.Feasible texts sql := by
  obtain ⟨hallowed, hneeds⟩ := accepts_iff.1 h
  exact .intro hmem hallowed fun needed hneeded => hexecuted needed (hneeds needed hneeded)

/-- What accepts nothing more of the texts holds everything that the feasible ones need. -/
theorem Feasible.accepts
    (hclosed : ∀ text ∈ texts, s.accepts executed text = true → text ∈ executed)
    (h : s.Feasible texts sql) : s.accepts executed sql = true := by
  induction h with
  | intro mem allowed needs ih =>
      refine accepts_iff.2 ⟨allowed, fun needed hneeded => ?_⟩
      obtain ⟨hmem, -, -⟩ := needs needed hneeded
      exact hclosed needed hmem (ih needed hneeded)

theorem Feasible.of_subset (hsub : texts ⊆ later) (h : s.Feasible texts sql) :
    s.Feasible later sql := by
  induction h with
  | intro mem allowed needs ih => exact .intro (hsub mem) allowed ih

/-- Of the ways in which a statement can fail a steady session knows only rejections. -/
theorem attempt_of_isSteady (hs : s.IsSteady) (sql : String) :
    s.attempt sql =
      if s.alwaysRejects sql then (.error (s.rejectionOf sql), s)
      else (s.missing? sql).elim (.ok (), { s with executed := s.executed ++ [sql] }) fun needed =>
        (.error (.statement ("'" ++ sql ++ "' needs '" ++ needed ++ "' first")), s) := by
  have hup : (! s.connected) = false := by rw [hs.connected, Bool.not_true]
  have hfaults : ¬ 0 < s.faults := by simp [hs.faults]
  have hfaultOn : ¬ 0 < timesLeft s.faultOn sql := by simp [hs.faultOn, timesLeft]
  have hfailTimes : ¬ 0 < timesLeft s.failTimes sql := by simp [hs.failTimes, timesLeft]
  rw [attempt, if_neg (by simp [hup]), if_neg hfaults, if_neg hfaultOn, if_neg hfailTimes]
  cases s.missing? sql <;> rfl

theorem isConnectionFault_rejectionOf (hs : s.IsSteady) (sql : String) :
    (s.rejectionOf sql).isConnectionFault = false := by
  rw [rejectionOf]
  cases herror : s.failError with
  | none => rfl
  | some e => exact hs.failError e herror

theorem missing?_eq_none_iff : s.missing? sql = none ↔
    ∀ needed, s.requires.lookup sql = some needed → needed ∈ s.executed := by
  rw [missing?, Option.filter_eq_none_iff]
  simp

theorem attempt_of_accepts (hs : s.IsSteady) (h : s.accepts s.executed sql = true) :
    s.attempt sql = (.ok (), { s with executed := s.executed ++ [sql] }) := by
  obtain ⟨hallowed, hneeds⟩ := accepts_iff.1 h
  rw [attempt_of_isSteady hs, hallowed, missing?_eq_none_iff.2 hneeds]
  rfl

theorem exists_attempt_of_not_accepts (hs : s.IsSteady) (h : s.accepts s.executed sql = false) :
    ∃ e, s.attempt sql = (.error e, s) ∧ e.isConnectionFault = false := by
  rw [attempt_of_isSteady hs]
  by_cases hreject : s.alwaysRejects sql = true
  · exact ⟨_, if_pos hreject, isConnectionFault_rejectionOf hs sql⟩
  rw [if_neg hreject]
  cases hmissing : s.missing? sql with
  | some needed => exact ⟨_, rfl, rfl⟩
  | none =>
      -- Nothing stands against the statement, so it would have been accepted.
      have haccepts := accepts_iff.2 ⟨by simpa using hreject, missing?_eq_none_iff.1 hmissing⟩
      rw [h] at haccepts
      cases haccepts

/-! ## Calls -/

theorem HasExecuted.isSteady {session : Scripted} (h : s.HasExecuted executed session)
    (hs : s.IsSteady) : session.IsSteady := by
  obtain ⟨calls, rfl⟩ := h
  exact ⟨hs.connected, hs.faults, hs.faultOn, hs.failTimes, hs.failError⟩

variable {w : World (Resilient Scripted)}

/-- A call of a steady session answers by what was executed, and counts. -/
theorem call_of_hasExecuted (answer : Scripted → α) (hs : s.IsSteady) (sql : String)
    {w : World Scripted} (hw : s.HasExecuted executed w.session) :
    (call sql answer w).1.isOk = s.accepts executed sql ∧
      s.HasExecuted (if s.accepts executed sql then executed ++ [sql] else executed)
        (call sql answer w).2.session ∧
      ∀ e, (call sql answer w).1 = .error e → e.isConnectionFault = false := by
  obtain ⟨calls, hsession⟩ := hw
  have hcounted : s.HasExecuted executed { w.session with calls := w.session.calls + 1 } :=
    ⟨calls + 1, by rw [hsession]⟩
  have hsteady := hcounted.isSteady hs
  obtain ⟨more, hmore⟩ := hcounted
  unfold call
  rw [hmore] at hsteady ⊢
  cases haccepts : s.accepts executed sql with
  | true =>
      have hattempt := attempt_of_accepts hsteady haccepts
      simp only [hattempt]
      exact ⟨rfl, ⟨more, rfl⟩, fun e he => by cases he⟩
  | false =>
      obtain ⟨e, hattempt, hfault⟩ := exists_attempt_of_not_accepts hsteady haccepts
      simp only [hattempt]
      refine ⟨rfl, ⟨more, rfl⟩, fun other hother => ?_⟩
      cases hother
      exact hfault

theorem execute_of_hasExecuted (attempts : Nat) (hs : s.IsSteady) (sql : String)
    (hw : s.HasExecuted executed w.session.inner) :
    ((connection.resilient attempts).execute sql w).1.isOk = s.accepts executed sql ∧
      s.HasExecuted (if s.accepts executed sql then executed ++ [sql] else executed)
        ((connection.resilient attempts).execute sql w).2.session.inner := by
  obtain ⟨hok, hexecuted, hfault⟩ :=
    call_of_hasExecuted (fun s => (s.affected.lookup sql).getD 1) hs sql
      (w := w.withSession w.session.inner) hw
  have hone : (connection.resilient attempts).execute sql w =
      Resilient.onInner (connection.execute sql) w :=
    Resilient.attempt_eq_onInner connection (connection.execute sql) (attempts - 1) hfault
  rw [hone]
  exact ⟨hok, hexecuted⟩

/--
A pass accepts feasible statements only, and none that it leaves would have been accepted at its
start.
-/
theorem pass_of_hasExecuted (attempts : Nat) (hs : s.IsSteady) {statements : List Statement}
    (hmem : ∀ t ∈ statements, t.text ∈ texts) (hw : s.HasExecuted executed w.session.inner)
    (hfeasible : ∀ text ∈ executed, s.Feasible texts text) :
    s.HasExecuted
        (executed ++ ((connection.resilient attempts).pass statements w).1.accepted.map
          Statement.text)
        ((connection.resilient attempts).pass statements w).2.session.inner ∧
      (∀ t ∈ ((connection.resilient attempts).pass statements w).1.accepted,
        s.Feasible texts t.text) ∧
      ∀ t ∈ ((connection.resilient attempts).pass statements w).1.failed,
        s.accepts executed t.text = false := by
  induction statements generalizing executed w with
  | nil =>
      refine ⟨?_, ?_, ?_⟩
      · simpa [Pass.accepted] using hw
      · simp [Pass.accepted]
      · simp [Pass.failed]
  | cons t rest ih =>
      obtain ⟨hhead, hrest⟩ := List.forall_mem_cons.1 hmem
      obtain ⟨hok, hmiddle⟩ := execute_of_hasExecuted attempts hs t.text hw
      rw [Connection.pass_cons]
      generalize (connection.resilient attempts).execute t.text w = served at hok hmiddle ⊢
      cases haccepts : s.accepts executed t.text with
      | true =>
          rw [haccepts] at hok
          rw [haccepts, if_pos rfl] at hmiddle
          have hhead := Feasible.of_accepts hhead hfeasible haccepts
          have hfeasible : ∀ text ∈ executed ++ [t.text], s.Feasible texts text := by
            rw [List.forall_mem_append, List.forall_mem_singleton]
            exact ⟨hfeasible, hhead⟩
          obtain ⟨hexecuted, haccepted, hfailed⟩ := ih hrest hmiddle hfeasible
          refine ⟨?_, ?_, ?_⟩
          · simpa [Pass.accepted, hok] using hexecuted
          · simpa [Pass.accepted, hok, hhead] using haccepted
          · -- What is accepted from the start of the pass on is still accepted here.
            intro u hu
            have hlater := hfailed u (by simpa [Pass.failed, hok] using hu)
            rw [Bool.eq_false_iff] at hlater ⊢
            exact fun h => hlater (accepts_of_subset (List.subset_append_left _ _) h)
      | false =>
          rw [haccepts] at hok
          rw [haccepts] at hmiddle
          obtain ⟨hexecuted, haccepted, hfailed⟩ := ih hrest hmiddle hfeasible
          refine ⟨?_, ?_, ?_⟩
          · simpa [Pass.accepted, hok] using hexecuted
          · simpa [Pass.accepted, hok] using haccepted
          · simpa [Pass.failed, hok, haccepts] using hfailed

end Scripted

end SqlScript
