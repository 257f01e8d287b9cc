import SqlScript.Proofs.Connection.Steady

/-!
# The budget of a reconnecting session

A scripted session that drops as often as is set up beforehand, and that is refused as often when it
is opened again, needs a certain number of tries until it answers a statement. A reconnecting
connection that may make so many makes them all and no more, and then the answer is that of a
session that was never down. With fewer it makes all that it may and nothing runs
(`Scripted.execute_budget`).
-/

namespace SqlScript

namespace Scripted

/-- The session as it is once it is up and does not drop any more. -/
def recovered (s : Scripted) : Scripted := { s with connected := true, faults := 0 }

/--
The session drops for its pending faults only, opening it fails for its pending refusals only, and
a rejected statement is no connection fault.
-/
structure DropsByCount (s : Scripted) : Prop where
  faultOn : s.faultOn = []
  failTimes : s.failTimes = []
  reconnectErrors : s.reconnectErrors = 0
  faultError : ∀ e ∈ s.faultError, e.isConnectionFault = true
  failError : ∀ e ∈ s.failError, ∃ text, e = .statement text

/-- The session answers the next statement. -/
def IsUp (s : Scripted) : Prop := s.connected = true ∧ s.faults = 0

instance (s : Scripted) : Decidable s.IsUp := inferInstanceAs (Decidable (_ ∧ _))

/-- The sessions that are opened until a statement is answered. -/
def openingsNeeded (s : Scripted) : Nat := s.faults + if s.connected then 0 else 1

/-- The calls that it takes until a statement is answered. -/
def triesNeeded (s : Scripted) : Nat :=
  if s.IsUp then 1 else s.faults + s.refused + 1 + if s.connected then 0 else 1

/-- What the answer of a session that is up goes by: neither its counters nor what is pending. -/
def setting (s : Scripted) : Scripted :=
  { s.recovered with
    refused := 0, disconnectErrors := 0, calls := 0, disconnects := 0, reconnects := 0 }

/-- The session with one more call to its count. -/
def counted (s : Scripted) : Scripted := { s with calls := s.calls + 1 }

/-- The session after a call that it did not answer. -/
def dropped (s : Scripted) : Scripted :=
  { s with
    calls := s.calls + 1
    faults := if s.connected then s.faults - 1 else s.faults
    connected := false }

/-- The session after it was closed. -/
def closed (s : Scripted) : Scripted :=
  { s with
    disconnects := s.disconnects + 1
    disconnectErrors := s.disconnectErrors - 1
    connected := false }

/-- The session after one try to open it. -/
def reopened (s : Scripted) : Scripted :=
  if 0 < s.refused then { s with refused := s.refused - 1 }
  else { s with reconnects := s.reconnects + 1, connected := true }

/-- What one try that fails, and the try to open the session again, do to what is needed. -/
structure Retried (s t : Resilient Scripted) : Prop where
  setting : t.inner.setting = s.inner.setting
  executed : t.inner.executed = s.inner.executed
  calls : t.inner.calls = s.inner.calls + 1
  tries : t.inner.triesNeeded + 1 = s.inner.triesNeeded
  opened : t.inner.reconnects + t.inner.openingsNeeded = s.inner.reconnects + s.inner.openingsNeeded
  counted : t.reconnects + t.inner.openingsNeeded = s.reconnects + s.inner.openingsNeeded

/--
The statement was answered as by a session that was never down, after exactly the calls and the
openings that are needed, and it ran at most once.
-/
structure Served (sql : String) (w : World (Resilient Scripted))
    (outcome : Except ScriptError Nat × World (Resilient Scripted)) : Prop where
  answer : outcome.1 = (connection.execute sql (w.withSession w.session.inner.recovered)).1
  rejection : ∀ e, outcome.1 = .error e → ∃ text, e = .statement text
  calls : outcome.2.session.inner.calls = w.session.inner.calls + w.session.inner.triesNeeded
  opened : outcome.2.session.inner.reconnects =
    w.session.inner.reconnects + w.session.inner.openingsNeeded
  counted : outcome.2.session.reconnects = w.session.reconnects + w.session.inner.openingsNeeded
  executed : outcome.2.session.inner.executed =
    w.session.inner.executed ++ if outcome.1.isOk then [sql] else []

/-- All the tries that are allowed were made, and nothing ran. -/
structure GaveUp (tries : Nat) (w : World (Resilient Scripted))
    (outcome : Except ScriptError Nat × World (Resilient Scripted)) : Prop where
  answer : ∃ e, outcome.1 = .error e ∧ e.isConnectionFault = true
  calls : outcome.2.session.inner.calls = w.session.inner.calls + tries
  executed : outcome.2.session.inner.executed = w.session.inner.executed

variable {s t : Scripted} {w : World Scripted}

theorem DropsByCount.of_setting_eq (h : s.DropsByCount) (hsetting : t.setting = s.setting) :
    t.DropsByCount where
  faultOn := (congrArg Scripted.faultOn hsetting).trans h.faultOn
  failTimes := (congrArg Scripted.failTimes hsetting).trans h.failTimes
  reconnectErrors := (congrArg Scripted.reconnectErrors hsetting).trans h.reconnectErrors
  faultError e he := h.faultError e ((congrArg Scripted.faultError hsetting) ▸ he)
  failError e he := h.failError e ((congrArg Scripted.failError hsetting) ▸ he)

theorem DropsByCount.isSteady (h : s.DropsByCount) (hup : s.IsUp) : s.IsSteady where
  connected := hup.1
  faults := hup.2
  faultOn := h.faultOn
  failTimes := h.failTimes
  failError e he := by
    obtain ⟨text, rfl⟩ := h.failError e he
    rfl

/-- A session that is there and is not up is still to drop. -/
theorem faults_pos (hdown : ¬ s.IsUp) (hconnected : s.connected = true) : 0 < s.faults :=
  Nat.pos_of_ne_zero fun hzero => hdown ⟨hconnected, hzero⟩

/-! ## One call -/

/-- A call answers by what its statement answers in the session that counted it. -/
theorem call_eq {α : Type} (sql : String) (answer : Scripted → α) (w : World Scripted) :
    call sql answer w =
      ((w.session.counted.attempt sql).1.map fun _ => answer (w.session.counted.attempt sql).2,
        ⟨(w.session.counted.attempt sql).2,
          w.files.changes (w.session.counted.effectsAt w.session.counted.calls), w.now⟩) := by
  rcases hattempt : w.session.counted.attempt sql with ⟨outcome, s⟩
  rw [counted] at hattempt
  cases outcome with
  | error e =>
      simp only [call, hattempt]
      rfl
  | ok value =>
      simp only [call, hattempt]
      rfl

theorem attempt_of_isUp (h : s.DropsByCount) (hup : s.IsUp) (sql : String) :
    s.attempt sql =
        ((s.setting.attempt sql).1,
          { s with
            executed :=
              s.executed ++ if (s.setting.attempt sql).1.isOk then [sql] else [] }) ∧
      ∀ e, (s.setting.attempt sql).1 = .error e → ∃ text, e = .statement text := by
  have hsteady := h.isSteady hup
  have hsetting : s.setting.IsSteady := ⟨rfl, rfl, h.faultOn, h.failTimes, hsteady.failError⟩
  have halways : s.setting.alwaysRejects sql = s.alwaysRejects sql := rfl
  have hmissing : s.setting.missing? sql = s.missing? sql := rfl
  have hrejection : s.setting.rejectionOf sql = s.rejectionOf sql := rfl
  rw [attempt_of_isSteady hsteady, attempt_of_isSteady hsetting, halways, hmissing, hrejection]
  by_cases hreject : s.alwaysRejects sql = true
  · rw [if_pos hreject, if_pos hreject]
    refine ⟨by simp [Except.isOk, Except.toBool], fun e he => ?_⟩
    obtain rfl : s.rejectionOf sql = e := Except.error.inj he
    rw [rejectionOf]
    cases herror : s.failError with
    | none => exact ⟨_, rfl⟩
    | some e => exact h.failError e herror
  · rw [if_neg hreject, if_neg hreject]
    cases s.missing? sql with
    | none => exact ⟨rfl, fun e he => by cases he⟩
    | some needed =>
        refine ⟨by simp [Except.isOk, Except.toBool], fun e he => ?_⟩
        cases he
        exact ⟨_, rfl⟩

/-- A session that is up answers by its setting, and nothing but a rejection is an error. -/
theorem execute_of_isUp (h : w.session.DropsByCount) (hup : w.session.IsUp) (sql : String) :
    (connection.execute sql w).1 =
        ((w.session.setting.attempt sql).1.map fun _ =>
          (w.session.setting.affected.lookup sql).getD 1) ∧
      (∀ e, (connection.execute sql w).1 = .error e → ∃ text, e = .statement text) ∧
      (connection.execute sql w).2.session =
        { w.session with
          calls := w.session.calls + 1
          executed := w.session.executed ++
            if (connection.execute sql w).1.isOk then [sql] else [] } := by
  have hcounted : w.session.counted.DropsByCount := h.of_setting_eq rfl
  obtain ⟨hattempt, herror⟩ := attempt_of_isUp hcounted hup sql
  have hsetting : w.session.counted.setting = w.session.setting := rfl
  simp only [connection, call_eq, hattempt, hsetting] at herror ⊢
  cases houtcome : (w.session.setting.attempt sql).1 with
  | error e =>
      refine ⟨rfl, fun other hother => ?_, rfl⟩
      cases hother
      exact herror e houtcome
  | ok value => exact ⟨rfl, nofun, rfl⟩

/-- Sessions of one setting answer alike once they are up. -/
theorem execute_recovered_eq {τ : Type} {w v : World τ} (h : s.DropsByCount)
    (hsetting : t.setting = s.setting) (sql : String) :
    (connection.execute sql (v.withSession t.recovered)).1 =
      (connection.execute sql (w.withSession s.recovered)).1 := by
  obtain ⟨hleft, -, -⟩ :=
    execute_of_isUp (w := v.withSession t.recovered)
      ((h.of_setting_eq hsetting).of_setting_eq rfl) ⟨rfl, rfl⟩ sql
  obtain ⟨hright, -, -⟩ :=
    execute_of_isUp (w := w.withSession s.recovered) (h.of_setting_eq rfl) ⟨rfl, rfl⟩ sql
  have hsession : (v.withSession t.recovered).session.setting =
      (w.withSession s.recovered).session.setting := hsetting
  rw [hleft, hright, hsession]

/-! ## A session that is down -/

theorem execute_of_not_isUp (h : w.session.DropsByCount) (hdown : ¬ w.session.IsUp)
    (sql : String) :
    ∃ e after, connection.execute sql w = (.error e, after) ∧ e.isConnectionFault = true ∧
      after.session = w.session.dropped := by
  simp only [connection, call_eq]
  have hsession : w.session.counted.connected = w.session.connected := rfl
  cases hconnected : w.session.connected with
  | false =>
      rw [attempt, if_pos (by rw [hsession, hconnected]; rfl)]
      refine ⟨_, _, rfl, rfl, ?_⟩
      simp [counted, dropped, hconnected]
  | true =>
      have hpending : 0 < w.session.counted.faults := faults_pos hdown hconnected
      rw [attempt, if_neg (by rw [hsession, hconnected]; decide), if_pos hpending]
      refine ⟨_, _, rfl, ?_, ?_⟩
      · change (w.session.faultError.getD _).isConnectionFault = true
        cases herror : w.session.faultError with
        | none => rfl
        | some e => exact h.faultError e herror
      · simp [counted, dropped, hconnected]

theorem disconnect_world (w : World Scripted) :
    (connection.disconnect w).2 = w.withSession w.session.closed := by
  simp only [connection, disconnect, World.withSession, closed]
  by_cases herrors : 0 < w.session.disconnectErrors
  · rw [if_pos herrors]
  · rw [if_neg herrors, Nat.eq_zero_of_not_pos herrors]

theorem reconnect_eq (h : w.session.reconnectErrors = 0) :
    connection.reconnect w =
      (if 0 < w.session.refused then .error (.connectionLost "connection refused") else .ok (),
        w.withSession w.session.reopened) := by
  have herrors : ¬ 0 < w.session.reconnectErrors := by rw [h]; exact Nat.lt_irrefl 0
  simp only [connection, reconnect, World.withSession, reopened]
  by_cases hrefused : 0 < w.session.refused
  · simp only [if_pos hrefused]
  · simp only [if_neg hrefused, if_neg herrors]

/-- A refused reconnect is not counted and does no more than leave the session closed. -/
theorem cycle_eq {w : World (Resilient Scripted)} (h : w.session.inner.reconnectErrors = 0) :
    Resilient.cycle connection w =
      (.ok (), w.withSession ⟨w.session.inner.closed.reopened,
        w.session.reconnects + if 0 < w.session.inner.refused then 0 else 1⟩) := by
  have hclosed : (Resilient.onInner connection.disconnect w).2 =
      w.withSession ⟨w.session.inner.closed, w.session.reconnects⟩ := by
    simp only [Resilient.onInner, disconnect_world, World.withSession]
  have hopened : Resilient.onInner connection.reconnect
      (w.withSession ⟨w.session.inner.closed, w.session.reconnects⟩) =
        (if 0 < w.session.inner.refused then .error (.connectionLost "connection refused")
          else .ok (), w.withSession ⟨w.session.inner.closed.reopened, w.session.reconnects⟩) := by
    rw [Resilient.onInner, reconnect_eq h]
    rfl
  rw [Resilient.cycle, hclosed, Resilient.reconnect, hopened]
  by_cases hrefused : 0 < w.session.inner.refused
  · simp only [if_pos hrefused]
    rfl
  · simp only [if_neg hrefused]
    rfl

/-! ## Tries -/

theorem triesNeeded_of_isUp (hup : s.IsUp) : s.triesNeeded = 1 := if_pos hup

theorem triesNeeded_of_not_isUp (hdown : ¬ s.IsUp) :
    s.triesNeeded = s.refused + 1 + s.openingsNeeded := by
  rw [triesNeeded, if_neg hdown, openingsNeeded]
  omega

/-- The next try of a session that is down is not the last. -/
theorem one_lt_triesNeeded (hdown : ¬ s.IsUp) : 1 < s.triesNeeded := by
  rw [triesNeeded_of_not_isUp hdown, openingsNeeded]
  cases hconnected : s.connected with
  | false =>
      simp only [Bool.false_eq_true, if_false]
      omega
  | true =>
      have hfaults := faults_pos hdown hconnected
      omega

theorem openingsNeeded_of_isUp (hup : s.IsUp) : s.openingsNeeded = 0 := by
  rw [openingsNeeded, hup.1, hup.2]
  rfl

theorem not_isUp_of_connected (h : s.connected = false) : ¬ s.IsUp :=
  fun hup => Bool.false_ne_true (h.symm.trans hup.1)

/-- A call that drops the session takes a fault from it, and leaves an opening in its place. -/
theorem openingsNeeded_dropped (hdown : ¬ s.IsUp) :
    s.dropped.openingsNeeded = s.openingsNeeded := by
  simp only [openingsNeeded, dropped]
  cases hconnected : s.connected with
  | false => rfl
  | true =>
      have hfaults := faults_pos hdown hconnected
      simp only [if_true, Bool.false_eq_true, if_false]
      omega

theorem triesNeeded_dropped (hdown : ¬ s.IsUp) : s.dropped.triesNeeded = s.triesNeeded := by
  rw [triesNeeded_of_not_isUp hdown, ← openingsNeeded_dropped hdown]
  exact triesNeeded_of_not_isUp (not_isUp_of_connected rfl)

theorem reconnects_reopened :
    s.reopened.reconnects = s.reconnects + if 0 < s.refused then 0 else 1 := by
  rw [reopened]
  by_cases hrefused : 0 < s.refused
  · rw [if_pos hrefused, if_pos hrefused]
    rfl
  · rw [if_neg hrefused, if_neg hrefused]

theorem openingsNeeded_reopened (hdown : s.connected = false) :
    (if 0 < s.refused then 0 else 1) + s.reopened.openingsNeeded = s.openingsNeeded := by
  rw [reopened]
  by_cases hrefused : 0 < s.refused
  · rw [if_pos hrefused, if_pos hrefused]
    exact Nat.zero_add _
  · rw [if_neg hrefused, if_neg hrefused, openingsNeeded, openingsNeeded, hdown]
    simp only [if_true, Bool.false_eq_true, if_false]
    omega

theorem refused_reopened (s : Scripted) : s.reopened.refused = s.refused - 1 := by
  rw [reopened]
  by_cases hrefused : 0 < s.refused
  · rw [if_pos hrefused]
  · rw [if_neg hrefused, Nat.eq_zero_of_not_pos hrefused]

/-- A try to open the session is refused, and a refusal is gone, or the session is there. -/
theorem triesNeeded_reopened (hdown : s.connected = false) :
    s.reopened.triesNeeded + 1 = s.triesNeeded := by
  have hopenings := openingsNeeded_reopened hdown
  rw [triesNeeded_of_not_isUp (not_isUp_of_connected hdown)]
  by_cases hrefused : 0 < s.refused
  · have hstill : s.reopened.connected = false := by rw [reopened, if_pos hrefused, hdown]
    rw [triesNeeded_of_not_isUp (not_isUp_of_connected hstill), refused_reopened]
    rw [if_pos hrefused] at hopenings
    omega
  · rw [if_neg hrefused] at hopenings
    by_cases hup : s.reopened.IsUp
    · rw [openingsNeeded_of_isUp hup] at hopenings
      rw [triesNeeded_of_isUp hup]
      omega
    · rw [triesNeeded_of_not_isUp hup, refused_reopened]
      omega

theorem retried_of_not_isUp {s : Resilient Scripted} (hdown : ¬ s.inner.IsUp) :
    Retried s ⟨s.inner.dropped.closed.reopened,
      s.reconnects + if 0 < s.inner.refused then 0 else 1⟩ := by
  have hopenings : (if 0 < s.inner.refused then 0 else 1) +
      s.inner.dropped.closed.reopened.openingsNeeded = s.inner.openingsNeeded :=
    (openingsNeeded_reopened (s := s.inner.dropped.closed) rfl).trans
      (openingsNeeded_dropped hdown)
  refine ⟨?setting, ?executed, ?calls, ?tries, ?opened, ?counted⟩
  case tries => exact (triesNeeded_reopened rfl).trans (triesNeeded_dropped hdown)
  case opened => rw [reconnects_reopened, Nat.add_assoc]; exact congrArg _ hopenings
  case counted => rw [Nat.add_assoc]; exact congrArg _ hopenings
  all_goals
    rw [reopened]
    by_cases hrefused : 0 < s.inner.dropped.closed.refused
    · rw [if_pos hrefused]
      rfl
    · rw [if_neg hrefused]
      rfl

variable {w : World (Resilient Scripted)}

theorem exists_attempt_eq_of_not_isUp (h : w.session.inner.DropsByCount)
    (hdown : ¬ w.session.inner.IsUp) (sql : String) (retries : Nat) :
    ∃ next, Resilient.attempt connection (connection.execute sql) (retries + 1) w =
        Resilient.attempt connection (connection.execute sql) retries next ∧
      Retried w.session next.session := by
  obtain ⟨e, after, hcall, hfault, hdropped⟩ :=
    execute_of_not_isUp (w := w.withSession w.session.inner) h hdown sql
  have hinner : Resilient.onInner (connection.execute sql) w =
      (.error e, after.withSession ⟨w.session.inner.dropped, w.session.reconnects⟩) := by
    simp only [Resilient.onInner, hcall, hdropped]
    rfl
  have hcycle := cycle_eq
    (w := after.withSession ⟨w.session.inner.dropped, w.session.reconnects⟩) h.reconnectErrors
  refine ⟨after.withSession _, ?_, retried_of_not_isUp hdown⟩
  simp only [Resilient.attempt, hinner, hfault, if_true, hcycle]
  rfl

/-- A session that is up answers the first try. -/
theorem served_of_isUp (h : w.session.inner.DropsByCount) (hup : w.session.inner.IsUp)
    (sql : String) : Served sql w (Resilient.onInner (connection.execute sql) w) := by
  obtain ⟨-, hrejection, hsession⟩ :=
    execute_of_isUp (w := w.withSession w.session.inner) h hup sql
  have hrecovered : w.session.inner.recovered = w.session.inner := by
    rw [recovered, ← hup.1, ← hup.2]
  have hopenings := openingsNeeded_of_isUp hup
  refine ⟨?answer, hrejection, ?calls, ?opened, ?counted, ?executed⟩
  case answer =>
    rw [hrecovered]
    rfl
  case calls =>
    rw [triesNeeded_of_isUp hup]
    exact (congrArg Scripted.calls hsession :)
  case opened =>
    rw [hopenings]
    exact (congrArg Scripted.reconnects hsession :)
  case counted =>
    rw [hopenings]
    rfl
  case executed => exact (congrArg Scripted.executed hsession :)

theorem served_of_retried {next : World (Resilient Scripted)} {sql : String}
    {outcome : Except ScriptError Nat × World (Resilient Scripted)}
    (h : w.session.inner.DropsByCount) (hretried : Retried w.session next.session)
    (hserved : Served sql next outcome) : Served sql w outcome where
  answer := hserved.answer.trans (execute_recovered_eq h hretried.setting sql)
  rejection := hserved.rejection
  calls := by rw [hserved.calls, hretried.calls, ← hretried.tries]; omega
  opened := hserved.opened.trans hretried.opened
  counted := hserved.counted.trans hretried.counted
  executed := hserved.executed.trans (congrArg (· ++ _) hretried.executed)

theorem gaveUp_of_retried {next : World (Resilient Scripted)} {tries : Nat}
    {outcome : Except ScriptError Nat × World (Resilient Scripted)}
    (hretried : Retried w.session next.session) (hgaveUp : GaveUp tries next outcome) :
    GaveUp (tries + 1) w outcome where
  answer := hgaveUp.answer
  calls := by rw [hgaveUp.calls, hretried.calls]; omega
  executed := hgaveUp.executed.trans hretried.executed

theorem gaveUp_of_not_isUp (h : w.session.inner.DropsByCount) (hdown : ¬ w.session.inner.IsUp)
    (sql : String) : GaveUp 1 w (Resilient.onInner (connection.execute sql) w) := by
  obtain ⟨e, after, hcall, hfault, hdropped⟩ :=
    execute_of_not_isUp (w := w.withSession w.session.inner) h hdown sql
  simp only [Resilient.onInner, hcall]
  exact ⟨⟨e, rfl, hfault⟩, (congrArg Scripted.calls hdropped :),
    (congrArg Scripted.executed hdropped :)⟩

theorem served_attempt_of_isUp (h : w.session.inner.DropsByCount)
    (hup : w.session.inner.IsUp) (sql : String) (retries : Nat) :
    Served sql w (Resilient.attempt connection (connection.execute sql) retries w) := by
  have hserved := served_of_isUp h hup sql
  rw [Resilient.attempt_eq_onInner connection (connection.execute sql) retries]
  · exact hserved
  · intro e he
    obtain ⟨text, rfl⟩ := hserved.rejection e he
    rfl

theorem attempt_budget (h : w.session.inner.DropsByCount) (sql : String) (retries : Nat) :
    (w.session.inner.triesNeeded ≤ retries + 1 →
        Served sql w (Resilient.attempt connection (connection.execute sql) retries w)) ∧
      (retries + 1 < w.session.inner.triesNeeded →
        GaveUp (retries + 1) w
          (Resilient.attempt connection (connection.execute sql) retries w)) := by
  induction retries generalizing w with
  | zero =>
      by_cases hup : w.session.inner.IsUp
      · have htries := triesNeeded_of_isUp hup
        exact ⟨fun _ => served_attempt_of_isUp h hup sql 0, fun hfew => by omega⟩
      · have htries := one_lt_triesNeeded hup
        exact ⟨fun henough => by omega, fun _ => gaveUp_of_not_isUp h hup sql⟩
  | succ retries ih =>
      by_cases hup : w.session.inner.IsUp
      · have htries := triesNeeded_of_isUp hup
        exact ⟨fun _ => served_attempt_of_isUp h hup sql (retries + 1), fun hfew => by omega⟩
      · -- The try that fails takes one from those needed and one from those left.
        obtain ⟨next, hattempt, hretried⟩ := exists_attempt_eq_of_not_isUp h hup sql retries
        obtain ⟨hserved, hgaveUp⟩ := ih (h.of_setting_eq hretried.setting)
        have htries := hretried.tries
        rw [hattempt]
        exact ⟨fun henough => served_of_retried h hretried (hserved (by omega)),
          fun hfew => gaveUp_of_retried hretried (hgaveUp (by omega))⟩

/--
With as many attempts as are needed the statement is served, and with fewer the connection gives up
after all of them.
-/
theorem execute_budget (attempts : Nat) (sql : String) (w : World (Resilient Scripted))
    (h : w.session.inner.DropsByCount) :
    (w.session.inner.triesNeeded ≤ max 1 attempts →
        Served sql w ((connection.resilient attempts).execute sql w)) ∧
      (max 1 attempts < w.session.inner.triesNeeded →
        GaveUp (max 1 attempts) w ((connection.resilient attempts).execute sql w)) := by
  have hattempts : attempts - 1 + 1 = max 1 attempts := by omega
  rw [← hattempts]
  exact attempt_budget h sql (attempts - 1)

/-- A session that drops once and is refused once needs three attempts. -/
theorem execute_budget_of_refused :
    let s := { fresh with faults := 1, refused := 1 }
    let w : World (Resilient Scripted) := ⟨Resilient.wrap s, default, default⟩
    s.DropsByCount ∧ s.triesNeeded = 3 ∧ s.openingsNeeded = 1 ∧
      Served "SELECT 1" w ((connection.resilient 3).execute "SELECT 1" w) ∧
      GaveUp 2 w ((connection.resilient 2).execute "SELECT 1" w) := by
  intro s w
  have hdrops : s.DropsByCount := ⟨rfl, rfl, rfl, nofun, nofun⟩
  exact ⟨hdrops, by decide, by decide, (execute_budget 3 "SELECT 1" w hdrops).1 (by decide),
    (execute_budget 2 "SELECT 1" w hdrops).2 (by decide)⟩

end Scripted

end SqlScript
