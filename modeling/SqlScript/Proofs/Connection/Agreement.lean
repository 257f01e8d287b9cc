import SqlScript.Connection.Recorded
import SqlScript.Runner

/-!
# Connections that agree

Two connections agree along a view of sessions if every operation of the one, seen through the view,
is the operation of the other. Nothing that is built on a connection can then tell them apart. In
particular it makes no difference to any work whether its calls are written down.
-/

namespace SqlScript

variable {σ τ α : Type}

/-- The world with its session seen through a view. -/
def World.map (view : σ → τ) (w : World σ) : World τ := w.withSession (view w.session)

@[simp] theorem World.map_files (view : σ → τ) (w : World σ) : (w.map view).files = w.files := rfl

@[simp] theorem World.map_now (view : σ → τ) (w : World σ) : (w.map view).now = w.now := rfl

/-- An operation, seen through a view, is another operation. -/
def Operation.Agrees (view : σ → τ) (op : Operation σ α) (seen : Operation τ α) : Prop :=
  ∀ w, seen (w.map view) = ((op w).1, (op w).2.map view)

structure Connection.Agrees (view : σ → τ) (c : Connection σ) (d : Connection τ) : Prop where
  execute : ∀ sql, Operation.Agrees view (c.execute sql) (d.execute sql)
  fetch : ∀ sql, Operation.Agrees view (c.fetch sql) (d.fetch sql)
  disconnect : Operation.Agrees view c.disconnect d.disconnect
  reconnect : Operation.Agrees view c.reconnect d.reconnect

/-- What is written down has no part in the answers. -/
theorem Connection.agrees_recorded (c : Connection σ) : c.recorded.Agrees Recorded.inner c :=
  ⟨fun _ _ => rfl, fun _ _ => rfl, fun _ => rfl, fun _ => rfl⟩

/-! ## Reconnecting -/

def Resilient.map (view : σ → τ) (s : Resilient σ) : Resilient τ := ⟨view s.inner, s.reconnects⟩

namespace Resilient

variable {view : σ → τ} {c : Connection σ} {d : Connection τ}

theorem agrees_onInner {op : Operation σ α} {seen : Operation τ α} (h : op.Agrees view seen) :
    Operation.Agrees (map view) (onInner op) (onInner seen) := by
  intro w
  have hinner : (w.map (map view)).withSession (w.map (map view)).session.inner =
      (w.withSession w.session.inner).map view := rfl
  simp only [onInner, hinner, h (w.withSession w.session.inner)]
  rfl

theorem agrees_reconnect (h : c.Agrees view d) :
    Operation.Agrees (map view) (reconnect c) (reconnect d) := by
  intro w
  have hinner := agrees_onInner h.reconnect w
  rcases hopened : onInner c.reconnect w with ⟨opened, after⟩
  rw [hopened] at hinner
  cases opened with
  | ok _ =>
      simp only [reconnect, hinner, hopened]
      rfl
  | error e => simp only [reconnect, hinner, hopened]

theorem agrees_cycle (h : c.Agrees view d) :
    Operation.Agrees (map view) (cycle c) (cycle d) := by
  intro w
  have hclosed := congrArg Prod.snd (agrees_onInner h.disconnect w)
  have hreconnect := agrees_reconnect h (onInner c.disconnect w).2
  rcases hopened : reconnect c (onInner c.disconnect w).2 with ⟨opened, after⟩
  rw [hopened] at hreconnect
  cases opened with
  | ok _ => simp only [cycle, hclosed, hreconnect, hopened]
  | error e => simp only [cycle, hclosed, hreconnect, hopened]

theorem agrees_attempt (h : c.Agrees view d) {op : Operation σ α} {seen : Operation τ α}
    (hop : op.Agrees view seen) (retries : Nat) :
    Operation.Agrees (map view) (attempt c op retries) (attempt d seen retries) := by
  induction retries with
  | zero => exact agrees_onInner hop
  | succ retries ih =>
      intro w
      have hinner := agrees_onInner hop w
      rcases hfirst : onInner op w with ⟨answer, after⟩
      rw [hfirst] at hinner
      cases answer with
      | ok value => simp only [attempt, hinner, hfirst]
      | error e =>
          by_cases hfault : e.isConnectionFault = true
          · have hcycle := agrees_cycle h after
            rcases hopened : cycle c after with ⟨opened, fresh⟩
            rw [hopened] at hcycle
            cases opened with
            | ok _ =>
                simp only [attempt, hinner, hfirst, hfault, if_true, hcycle, hopened, ih fresh]
            | error e => simp only [attempt, hinner, hfirst, hfault, if_true, hcycle, hopened]
          · simp only [attempt, hinner, hfirst, if_neg hfault]

end Resilient

variable {view : σ → τ} {c : Connection σ} {d : Connection τ}

theorem Connection.Agrees.resilient (h : c.Agrees view d) (attempts : Nat) :
    (c.resilient attempts).Agrees (Resilient.map view) (d.resilient attempts) where
  execute sql := Resilient.agrees_attempt h (h.execute sql) _
  fetch sql := Resilient.agrees_attempt h (h.fetch sql) _
  disconnect := Resilient.agrees_onInner h.disconnect
  reconnect := Resilient.agrees_reconnect h

/-! ## Passes and rounds -/

theorem Connection.Agrees.pass (h : c.Agrees view d) (statements : List Statement) (w : World σ) :
    d.pass statements (w.map view) =
      ((c.pass statements w).1, (c.pass statements w).2.map view) := by
  induction statements generalizing w with
  | nil => rfl
  | cons s rest ih =>
      rw [Connection.pass_cons, Connection.pass_cons, h.execute s.text w, ih]

theorem Retry.Plan.agrees_round (p : Plan) (h : c.Agrees view d) (statements : List Statement)
    (w : World σ) :
    p.round d statements (w.map view) =
      ((p.round c statements w).1, (p.round c statements w).2.1,
        (p.round c statements w).2.2.map view) := by
  rcases hpass : c.pass statements w with ⟨pass, after⟩
  have hseen := h.pass statements w
  rw [hpass] at hseen
  by_cases hclean : pass.outcome.isClean = true
  · simp only [round, hpass, hseen, if_pos hclean]
  · rcases harchive : p.archiver.archive pass.failed p.label after.now after.files with
      ⟨answer, files⟩
    cases answer with
    | error e =>
        simp only [round, hpass, hseen, if_neg hclean, World.map_now, World.map_files, harchive]
        rfl
    | ok batch =>
        simp only [round, hpass, hseen, if_neg hclean, World.map_now, World.map_files, harchive]
        rfl

/-- Rounds over connections that agree do the same and leave worlds that agree. -/
theorem Retry.Plan.agrees_rounds (p : Plan) (h : c.Agrees view d) (left : Nat) (counter : Counter)
    (batch : Archive.Batch) (folded : Option Outcome) (w : World σ) :
    p.rounds d left counter batch folded (w.map view) =
      ((p.rounds c left counter batch folded w).1,
        (p.rounds c left counter batch folded w).2.map view) := by
  induction left generalizing counter batch folded w with
  | zero =>
      simp only [rounds, World.map_files]
      split <;> rfl
  | succ left ih =>
      by_cases hempty : batch.isEmpty = true
      · simp only [rounds, if_pos hempty]
      · cases hload : p.load w.files batch with
        | error e => simp only [rounds, if_neg hempty, World.map_files, hload]
        | ok statements =>
            have hround := p.agrees_round h statements w
            rcases hrun : p.round c statements w with ⟨pass, answer, after⟩
            rw [hrun] at hround
            simp only [rounds, if_neg hempty, World.map_files, hload, hround, hrun]
            cases answer with
            | error e => rfl
            | ok next =>
                cases next with
                | none => rfl
                | some next => simp only [ih]

theorem Retry.Plan.agrees_retry (p : Plan) (h : c.Agrees view d) (batch : Archive.Batch)
    (w : World σ) :
    p.retry d batch (w.map view) = ((p.retry c batch w).1, (p.retry c batch w).2.map view) :=
  p.agrees_rounds h _ _ _ _ w

/-! ## Runs -/

theorem Config.agrees_retryFailures (config : Config) {view : Resilient σ → Resilient τ}
    {c : Connection (Resilient σ)} {d : Connection (Resilient τ)} (h : c.Agrees view d)
    (label : String) (first : Pass) (w : World (Resilient σ)) :
    config.retryFailures d label first (w.map view) =
      ((config.retryFailures c label first w).1,
        (config.retryFailures c label first w).2.map view) := by
  rcases harchive : config.archiver.archive first.failed label w.now w.files with ⟨answer, files⟩
  cases answer with
  | error e =>
      simp only [retryFailures, World.map_now, World.map_files, harchive]
      rfl
  | ok batch =>
      have hretry :
          (config.retryPlan label).retry d batch ⟨(w.map view).session, files, w.now⟩ = _ :=
        (config.retryPlan label).agrees_retry h batch { w with files }
      simp only [retryFailures, World.map_now, World.map_files, harchive, hretry]

/-- Whatever a run does to a session depends on what can be seen of it only. -/
theorem Script.agrees_run (script : Script) (config : Config) (h : c.Agrees view d)
    (w : World (Resilient σ)) :
    script.run config d (w.map (Resilient.map view)) =
      ((script.run config c w).1, (script.run config c w).2.map (Resilient.map view)) := by
  have hconnection : (config.connection c).Agrees (Resilient.map view) (config.connection d) :=
    h.resilient _
  rcases hpass : (config.connection c).pass (script.prepare config).statements w with
    ⟨first, after⟩
  have hseen := hconnection.pass (script.prepare config).statements w
  rw [hpass] at hseen
  by_cases hends : first.outcome.isClean = true ∨ ¬ config.archiveFailures = true
  · simp only [run, hpass, hseen, if_pos hends]
    rfl
  · have hfailures := config.agrees_retryFailures hconnection script.label first after
    rcases hretried : config.retryFailures (config.connection c) script.label first after with
      ⟨retried, last⟩
    rw [hretried] at hfailures
    simp only [run, hpass, hseen, if_neg hends, hfailures, hretried]
    cases retried.result with
    | error e => rfl
    | ok report => rfl

theorem Archive.Batch.agrees_run (batch : Archive.Batch) (label : String) (config : Config)
    (h : c.Agrees view d) (w : World (Resilient σ)) :
    batch.run label config d (w.map (Resilient.map view)) =
      ((batch.run label config c w).1,
        (batch.run label config c w).2.map (Resilient.map view)) := by
  have hconnection : (config.connection c).Agrees (Resilient.map view) (config.connection d) :=
    h.resilient _
  have hseen := (config.retryPlan label).agrees_retry hconnection batch w
  rcases hretry : (config.retryPlan label).retry (config.connection c) batch w with ⟨retried, last⟩
  rw [hretry] at hseen
  simp only [run, hretry, hseen]
  cases retried.result with
  | error e => rfl
  | ok report => rfl

end SqlScript
