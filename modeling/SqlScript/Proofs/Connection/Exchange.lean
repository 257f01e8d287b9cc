import SqlScript.Proofs.Connection.Agreement
import SqlScript.Proofs.Connection.Calls

/-!
# The exchange for one request

A reconnecting connection tries a request until it is answered by something else than a connection
fault or may be tried no more, and closes and reopens the inner session between two tries. The main
theorem is `Connection.isExchange_resilient`: the calls behind each request are such an exchange.
What is said of the calls behind a pass is read off the exchanges for its statements.
-/

namespace SqlScript

variable {σ α : Type}

namespace Resilient

/-- A try that met a fault, and the answers to closing the session and opening one after it. -/
structure Cycle where
  fault : ScriptError
  closed : Except ScriptError Unit
  opened : Except ScriptError Unit

/-- A session was opened, or a connection fault is left to the next try to find. -/
def Cycle.GoesOn (cycle : Cycle) : Prop :=
  ∀ e, cycle.opened = .error e → e.isConnectionFault = true

def Cycle.calls (cycle : Cycle) (request : Except ScriptError α → Call) : List Call :=
  [request (.error cycle.fault), .disconnect cycle.closed, .reconnect cycle.opened]

/-- Some cycles and, unless the last of them ended the request, one more try. -/
structure Exchange (α : Type) where
  cycles : List Cycle
  last : Option (Except ScriptError α)

namespace Exchange

def calls (x : Exchange α) (request : Except ScriptError α → Call) : List Call :=
  (x.cycles.flatMap fun cycle => cycle.calls request) ++ x.last.toList.map request

def tries (x : Exchange α) : Nat := x.cycles.length + x.last.toList.length

/-- The answer is that of the last try, or the error for which no session could be opened. -/
inductive Ends : Exchange α → Except ScriptError α → Prop
  | tried {cycles : List Cycle} {answer : Except ScriptError α}
      (goesOn : ∀ cycle ∈ cycles, cycle.GoesOn) : Ends ⟨cycles, some answer⟩ answer
  | refused {cycles : List Cycle} {cycle : Cycle} {e : ScriptError}
      (goesOn : ∀ cycle ∈ cycles, cycle.GoesOn) (opened : cycle.opened = .error e)
      (noFault : e.isConnectionFault = false) : Ends ⟨cycles ++ [cycle], none⟩ (.error e)

/-- The exchange gives an answer after at most `bound` tries. -/
structure Gives (x : Exchange α) (bound : Nat) (answer : Except ScriptError α) : Prop where
  ends : x.Ends answer
  faults : ∀ cycle ∈ x.cycles, cycle.fault.isConnectionFault = true
  pos : 1 ≤ x.tries
  le : x.tries ≤ bound
  /-- A connection fault is an answer only if no try is left, and nothing is called after it. -/
  exhausted : ∀ e, answer = .error e → e.isConnectionFault = true →
    x.tries = bound ∧ x.last = some answer

theorem gives_last {bound : Nat} {answer : Except ScriptError α} (hbound : 1 ≤ bound)
    (h : ∀ e, answer = .error e → e.isConnectionFault = true → bound = 1) :
    Gives ⟨[], some answer⟩ bound answer where
  ends := .tried (by simp)
  faults := by simp
  pos := Nat.le_refl 1
  le := hbound
  exhausted e he hfault := ⟨(h e he hfault).symm, rfl⟩

theorem gives_refused {bound : Nat} {cycle : Cycle} {e : ScriptError} (hbound : 1 ≤ bound)
    (hfault : cycle.fault.isConnectionFault = true) (hopened : cycle.opened = .error e)
    (he : e.isConnectionFault = false) :
    Gives (α := α) ⟨[cycle], none⟩ bound (.error e) where
  ends := by
    show Ends ⟨[] ++ [cycle], none⟩ (.error e)
    exact .refused (by simp) hopened he
  faults := by simpa using hfault
  pos := Nat.le_refl 1
  le := hbound
  exhausted other hother hfault := by
    cases hother
    rw [he] at hfault
    cases hfault

/-- A cycle that goes on, before an exchange. -/
def after (cycle : Cycle) (x : Exchange α) : Exchange α := { x with cycles := cycle :: x.cycles }

theorem tries_after (cycle : Cycle) (x : Exchange α) : (after cycle x).tries = x.tries + 1 := by
  simp only [tries, after, List.length_cons]
  omega

theorem Ends.after {x : Exchange α} {answer : Except ScriptError α} {cycle : Cycle}
    (h : x.Ends answer) (hcycle : cycle.GoesOn) : (after cycle x).Ends answer := by
  cases h with
  | tried goesOn => exact .tried (List.forall_mem_cons.2 ⟨hcycle, goesOn⟩)
  | @refused cycles last e goesOn opened noFault =>
      show Ends ⟨(cycle :: cycles) ++ [last], none⟩ (.error e)
      exact .refused (List.forall_mem_cons.2 ⟨hcycle, goesOn⟩) opened noFault

theorem Gives.after {x : Exchange α} {bound : Nat} {answer : Except ScriptError α} {cycle : Cycle}
    (h : x.Gives bound answer) (hfault : cycle.fault.isConnectionFault = true)
    (hcycle : cycle.GoesOn) : (Exchange.after cycle x).Gives (bound + 1) answer := by
  have htries := tries_after cycle x
  have hle := h.le
  refine ⟨h.ends.after hcycle, List.forall_mem_cons.2 ⟨hfault, h.faults⟩, ?_, ?_, ?_⟩
  · omega
  · omega
  · intro e he hanswer
    obtain ⟨hall, hlast⟩ := h.exhausted e he hanswer
    exact ⟨by omega, hlast⟩

end Exchange

/-! ## What is read off the calls of an exchange -/

theorem runs_disconnect (answer : Except ScriptError Unit) :
    (Call.disconnect answer).runs = false := rfl

theorem runs_reconnect (answer : Except ScriptError Unit) :
    (Call.reconnect answer).runs = false := rfl

/-- Calls of the kind by which a statement or a query is handed over. -/
structure IsRequest (sql : String) (request : Except ScriptError α → Call) : Prop
    extends Recorded.IsFor sql request where
  opens : ∀ answer, (request answer).opens = false

theorem isRequest_execute (sql : String) : IsRequest sql (Call.execute sql) := by
  refine ⟨⟨fun _ => rfl, fun answer => ?_⟩, fun _ => rfl⟩
  cases answer <;> rfl

theorem isRequest_fetch (sql : String) : IsRequest sql (Call.fetch sql) := by
  refine ⟨⟨fun _ => rfl, fun answer => ?_⟩, fun _ => rfl⟩
  cases answer <;> rfl

variable {sql : String} {request : Except ScriptError α → Call}

theorem texts_cycle (h : IsRequest sql request) (cycle : Cycle) :
    Call.texts (cycle.calls request) = [sql] := by
  rw [Call.texts, Cycle.calls, List.filterMap_cons_some (h.text _)]
  rfl

theorem filter_runs_cycle (h : IsRequest sql request) (cycle : Cycle) :
    (cycle.calls request).filter Call.runs = [] := by
  have hfault : (request (.error cycle.fault)).runs = false := h.runs _
  simp [Cycle.calls, hfault, runs_disconnect, runs_reconnect]

namespace Exchange

theorem calls_after (cycle : Cycle) (x : Exchange α) :
    (after cycle x).calls request = cycle.calls request ++ x.calls request := by
  simp only [calls, after, List.flatMap_cons, List.append_assoc]

/-- The text is handed over in every try. -/
theorem texts_calls (h : IsRequest sql request) (x : Exchange α) :
    Call.texts (x.calls request) = List.replicate x.tries sql := by
  obtain ⟨cycles, last⟩ := x
  induction cycles with
  | nil => cases last <;> simp [Call.texts, calls, tries, h.text]
  | cons cycle rest ih =>
      show Call.texts ((after cycle ⟨rest, last⟩).calls request) =
        List.replicate (after cycle ⟨rest, last⟩).tries sql
      rw [calls_after, tries_after, Call.texts_append, texts_cycle h, ih, List.replicate_succ]
      rfl

/-- Only the last try can have run. -/
theorem filter_runs_calls (h : IsRequest sql request) (x : Exchange α) :
    (x.calls request).filter Call.runs = (x.last.toList.filter Except.isOk).map request := by
  have hcycles : (x.cycles.flatMap fun cycle => cycle.calls request).filter Call.runs = [] := by
    rw [List.filter_flatMap, List.flatMap_eq_nil_iff]
    exact fun cycle _ => filter_runs_cycle h cycle
  rw [calls, List.filter_append, hcycles, List.nil_append, List.filter_map]
  congr 2
  funext answer
  exact h.runs answer

theorem countP_runs_le_one (h : IsRequest sql request) (x : Exchange α) :
    (x.calls request).countP Call.runs ≤ 1 := by
  rw [List.countP_eq_length_filter, filter_runs_calls h, List.length_map]
  have hlength : x.last.toList.length ≤ 1 := by cases x.last <;> simp
  exact Nat.le_trans (List.length_filter_le _ _) hlength

/-- The request ran if it was answered without an error, and not otherwise. -/
theorem Gives.filter_runs {x : Exchange α} {bound : Nat} {answer : Except ScriptError α}
    (h : x.Gives bound answer) (hrequest : IsRequest sql request) :
    (x.calls request).filter Call.runs = if answer.isOk then [request answer] else [] := by
  rw [filter_runs_calls hrequest]
  cases h.ends with
  | tried goesOn => cases answer <;> rfl
  | refused goesOn opened noFault => rfl

end Exchange

/-! ## The calls of a try, a cycle and a request -/

/-- Between two worlds these calls were made, and each session that they opened was counted. -/
structure Traces (w after : World (Resilient (Recorded σ))) (calls : List Call) : Prop where
  calls_eq : after.session.inner.calls = w.session.inner.calls ++ calls
  reconnects_eq : after.session.reconnects = w.session.reconnects + calls.countP Call.opens

theorem Traces.refl (w : World (Resilient (Recorded σ))) : Traces w w [] :=
  ⟨(List.append_nil _).symm, rfl⟩

theorem Traces.trans {w middle after : World (Resilient (Recorded σ))} {first later : List Call}
    (h : Traces w middle first) (hlater : Traces middle after later) :
    Traces w after (first ++ later) := by
  constructor
  · rw [hlater.calls_eq, h.calls_eq, List.append_assoc]
  · rw [hlater.reconnects_eq, h.reconnects_eq, List.countP_append]
    omega

theorem traces_onInner (h : IsRequest sql request) (op : Operation σ α)
    (w : World (Resilient (Recorded σ))) :
    Traces w (onInner (Recorded.note request op) w).2
      [request (onInner (Recorded.note request op) w).1] := by
  refine ⟨rfl, ?_⟩
  simp only [List.countP_cons, List.countP_nil, h.opens]
  rfl

/-- A cycle goes on, or ends in an error that is no connection fault. -/
theorem exists_cycle (c : Connection σ) (fault : ScriptError) (w : World (Resilient (Recorded σ))) :
    ∃ made : Cycle, made.fault = fault ∧
      Traces w (cycle c.recorded w).2 [.disconnect made.closed, .reconnect made.opened] ∧
      (((cycle c.recorded w).1 = .ok () ∧ made.GoesOn) ∨
        ∃ e, (cycle c.recorded w).1 = .error e ∧ made.opened = .error e ∧
          e.isConnectionFault = false) := by
  let shut := onInner c.recorded.disconnect w
  have hcalls : (onInner c.recorded.reconnect shut.2).2.session.inner.calls =
      w.session.inner.calls ++
        [.disconnect shut.1, .reconnect (onInner c.recorded.reconnect shut.2).1] :=
    List.append_assoc ..
  have hreconnects : (onInner c.recorded.reconnect shut.2).2.session.reconnects =
      w.session.reconnects := rfl
  refine ⟨⟨fault, shut.1, (onInner c.recorded.reconnect shut.2).1⟩, rfl, ?_⟩
  rcases hopened : onInner c.recorded.reconnect shut.2 with ⟨opened, after⟩
  rw [hopened] at hcalls hreconnects
  cases opened with
  | ok _ =>
      have hcycle : cycle c.recorded w = (.ok (), count after) := by
        simp only [cycle, reconnect, shut] at hopened ⊢
        rw [hopened]
      rw [hcycle]
      refine ⟨⟨hcalls, congrArg (· + 1) hreconnects⟩, .inl ⟨rfl, ?_⟩⟩
      intro e he
      cases he
  | error e =>
      have hcycle : cycle c.recorded w =
          (if e.isConnectionFault then .ok () else .error e, after) := by
        simp only [cycle, reconnect, shut] at hopened ⊢
        rw [hopened]
      rw [hcycle]
      refine ⟨⟨hcalls, hreconnects⟩, ?_⟩
      by_cases hfault : e.isConnectionFault = true
      · refine .inl ⟨if_pos hfault, ?_⟩
        intro other hother
        cases hother
        exact hfault
      · exact .inr ⟨e, if_neg hfault, rfl, by simpa using hfault⟩

/-- The calls of a request are an exchange that gives its answer. -/
theorem exists_exchange_attempt (c : Connection σ) (h : IsRequest sql request) (op : Operation σ α)
    (retries : Nat) (w : World (Resilient (Recorded σ))) :
    ∃ x : Exchange α,
      Traces w (attempt c.recorded (Recorded.note request op) retries w).2 (x.calls request) ∧
      x.Gives (retries + 1) (attempt c.recorded (Recorded.note request op) retries w).1 := by
  -- On the tries that are left: a cycle that goes on takes one of them.
  induction retries generalizing w with
  | zero =>
      exact ⟨⟨[], some _⟩, traces_onInner h op w,
        Exchange.gives_last (Nat.le_refl 1) fun _ _ _ => rfl⟩
  | succ retries ih =>
      have hfirst := traces_onInner h op w
      rcases hinner : onInner (Recorded.note request op) w with ⟨answer, after⟩
      rw [hinner] at hfirst
      cases answer with
      | ok value =>
          simp only [attempt, hinner]
          refine ⟨⟨[], some (.ok value)⟩, hfirst, Exchange.gives_last (by omega) ?_⟩
          intro e he
          cases he
      | error e =>
          by_cases hfault : e.isConnectionFault = true
          · -- The try and the cycle after it come first, whatever the cycle leads to.
            obtain ⟨made, rfl, hcalls, hend⟩ := exists_cycle c e after
            have hmade : Traces w (cycle c.recorded after).2 (made.calls request) :=
              hfirst.trans hcalls
            rcases hcycle : cycle c.recorded after with ⟨opened, fresh⟩
            rw [hcycle] at hmade hend
            rcases hend with ⟨hopened, hgoes⟩ | ⟨e, hopened, hcause, he⟩
            · subst hopened
              simp only [attempt, hinner, hfault, if_true, hcycle]
              obtain ⟨x, hx, hgives⟩ := ih fresh
              refine ⟨.after made x, ?_, hgives.after hfault hgoes⟩
              rw [Exchange.calls_after]
              exact hmade.trans hx
            · subst hopened
              simp only [attempt, hinner, hfault, if_true, hcycle]
              refine ⟨⟨[made], none⟩, ?_, Exchange.gives_refused (by omega) hfault hcause he⟩
              simpa [Exchange.calls] using hmade
          · simp only [attempt, hinner, if_neg hfault]
            refine ⟨⟨[], some (.error e)⟩, hfirst, Exchange.gives_last (by omega) ?_⟩
            intro other hother hagain
            cases hother
            exact absurd hagain hfault

/-- The world with the calls on the inner session written down from now on. -/
def watch (w : World (Resilient σ)) : World (Resilient (Recorded σ)) :=
  w.map (map Recorded.start)

/--
A request is answered by an exchange of at most `bound` tries: its calls are those that are made on
the inner session, at most one of them ran, and as many sessions were opened as are counted.
-/
def IsExchange (request : Except ScriptError α → Call) (bound : Nat)
    (noted : Operation (Resilient (Recorded σ)) α) (op : Operation (Resilient σ) α)
    (w : World (Resilient σ)) : Prop :=
  ∃ x : Exchange α,
    (noted (watch w)).2.session.inner.calls = x.calls request ∧
    x.Gives bound (op w).1 ∧
    (x.calls request).countP Call.runs ≤ 1 ∧
    (op w).2.session.reconnects = w.session.reconnects + (x.calls request).countP Call.opens

theorem isExchange_attempt (c : Connection σ) (h : IsRequest sql request) (op : Operation σ α)
    (retries : Nat) (w : World (Resilient σ)) :
    IsExchange request (retries + 1) (attempt c.recorded (Recorded.note request op) retries)
      (attempt c op retries) w := by
  obtain ⟨x, htraces, hgives⟩ := exists_exchange_attempt c h op retries (watch w)
  have hsame : attempt c op retries w =
      ((attempt c.recorded (Recorded.note request op) retries (watch w)).1,
        (attempt c.recorded (Recorded.note request op) retries (watch w)).2.map
          (map Recorded.inner)) :=
    agrees_attempt c.agrees_recorded (fun _ => rfl) retries (watch w)
  refine ⟨x, htraces.calls_eq, ?_, Exchange.countP_runs_le_one h x, ?_⟩
  · rwa [hsame]
  · rw [hsame]
    exact htraces.reconnects_eq

end Resilient

open Resilient

/--
A statement and a query alike are answered by an exchange of tries and cycles. There are at least
one and at most `attempts` tries, each but the last one met a connection fault, and such a fault is
the answer only if no try is left.
-/
theorem Connection.isExchange_resilient (c : Connection σ) (attempts : Nat) (sql : String)
    (w : World (Resilient σ)) :
    IsExchange (.execute sql) (max 1 attempts) ((c.recorded.resilient attempts).execute sql)
      ((c.resilient attempts).execute sql) w ∧
    IsExchange (.fetch sql) (max 1 attempts) ((c.recorded.resilient attempts).fetch sql)
      ((c.resilient attempts).fetch sql) w := by
  have hbound : max 1 attempts = attempts - 1 + 1 := by omega
  rw [hbound]
  constructor
  · exact isExchange_attempt c (isRequest_execute sql) (c.execute sql) (attempts - 1) w
  · exact isExchange_attempt c (isRequest_fetch sql) (c.fetch sql) (attempts - 1) w

/-! ## The exchanges of a pass -/

namespace Resilient

/-- An exchange for each answer, in order. -/
inductive Exchanges (bound : Nat) :
    List (Statement × Except ScriptError Nat) → List Call → Prop
  | nil : Exchanges bound [] []
  | cons {s : Statement} {answer : Except ScriptError Nat} {x : Exchange Nat}
      {answers : List (Statement × Except ScriptError Nat)} {calls : List Call}
      (gives : x.Gives bound answer) (rest : Exchanges bound answers calls) :
      Exchanges bound ((s, answer) :: answers) (x.calls (.execute s.text) ++ calls)

namespace Exchanges

variable {bound : Nat} {answers later : List (Statement × Except ScriptError Nat)}
  {calls more : List Call}

theorem append (h : Exchanges bound answers calls) (hlater : Exchanges bound later more) :
    Exchanges bound (answers ++ later) (calls ++ more) := by
  induction h with
  | nil => exact hlater
  | cons gives rest ih =>
      rw [List.append_assoc]
      exact .cons gives ih

/-- What is answered in two parts is called for in two parts. -/
theorem exists_of_append (h : Exchanges bound (answers ++ later) calls) :
    ∃ first rest, calls = first ++ rest ∧ Exchanges bound answers first ∧
      Exchanges bound later rest := by
  induction answers generalizing calls with
  | nil => exact ⟨[], calls, rfl, .nil, h⟩
  | cons answer answers ih =>
      cases h with
      | cons gives rest =>
          obtain ⟨first, more, rfl, hfirst, hmore⟩ := ih rest
          exact ⟨_, more, (List.append_assoc ..).symm, .cons gives hfirst, hmore⟩

theorem eq_nil (h : Exchanges bound [] calls) : calls = [] := by
  cases h
  rfl

/-- No text is handed over but those of the statements, and each of them is. -/
theorem mem_texts_iff (h : Exchanges bound answers calls) (text : String) :
    text ∈ Call.texts calls ↔ text ∈ answers.map fun answer => answer.1.text := by
  induction h with
  | nil => rfl
  | @cons s answer x answers calls gives rest ih =>
      have htried : x.tries ≠ 0 := Nat.ne_of_gt gives.pos
      rw [Call.texts_append, Exchange.texts_calls (isRequest_execute s.text), List.mem_append,
        List.mem_replicate, ih, List.map_cons, List.mem_cons]
      simp only [htried, ne_eq, not_false_eq_true, true_and]

/-- Each statement that is answered without an error runs once, and no other one does. -/
theorem filter_runs (h : Exchanges bound answers calls) :
    calls.filter Call.runs = (answers.filter fun answer => answer.2.isOk).map Call.ofAnswer := by
  induction h with
  | nil => rfl
  | @cons s answer x answers calls gives rest ih =>
      rw [List.filter_append, gives.filter_runs (isRequest_execute s.text), ih, List.filter_cons]
      cases answer <;> rfl

theorem ran_eq (h : Exchanges bound answers calls) :
    Call.ran calls =
      (answers.filter fun answer => answer.2.isOk).map fun answer => answer.1.text := by
  rw [Call.ran, h.filter_runs, List.filterMap_map]
  exact congrFun List.filterMap_eq_map _

theorem countP_runs (h : Exchanges bound answers calls) :
    calls.countP Call.runs = answers.countP fun answer => answer.2.isOk := by
  rw [List.countP_eq_length_filter, h.filter_runs, List.length_map, List.countP_eq_length_filter]

end Exchanges

theorem tracks_exchanges (c : Connection σ) (attempts : Nat) :
    (c.recorded.resilient attempts).Tracks fun w answers after =>
      ∃ calls, Traces w after calls ∧ Exchanges (max 1 attempts) answers calls where
  refl w := ⟨[], .refl w, .nil⟩
  trans := by
    rintro w middle after first later ⟨calls, htraces, hfirst⟩ ⟨more, hmore, hlater⟩
    exact ⟨calls ++ more, htraces.trans hmore, hfirst.append hlater⟩
  execute s w := by
    have hbound : max 1 attempts = attempts - 1 + 1 := by omega
    obtain ⟨x, htraces, hgives⟩ :=
      exists_exchange_attempt c (isRequest_execute s.text) (c.execute s.text) (attempts - 1) w
    rw [← hbound] at hgives
    have hsingle := Exchanges.cons (s := s) hgives .nil
    rw [List.append_nil] at hsingle
    exact ⟨_, htraces, hsingle⟩
  files := by
    rintro w after answers files ⟨calls, htraces, hcalls⟩
    exact ⟨calls, ⟨htraces.calls_eq, htraces.reconnects_eq⟩, hcalls⟩

end Resilient

end SqlScript
