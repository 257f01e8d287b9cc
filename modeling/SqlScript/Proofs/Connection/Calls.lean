import SqlScript.Connection.Recorded
import SqlScript.Connection.Resilient
import SqlScript.Pass

/-!
# The calls of a pass

A pass does nothing else with a connection than to execute its statements one after another. What
holds between the worlds before and after each of them holds over the pass
(`Connection.Tracks.pass`).
-/

namespace SqlScript

variable {σ α : Type}

namespace Call

/-- The text that a call hands over. -/
def text? : Call → Option String
  | execute sql _ | fetch sql _ => some sql
  | disconnect _ | reconnect _ => none

/-- The texts handed over in some calls, each as often as it was tried. -/
def texts (calls : List Call) : List String := calls.filterMap text?

/-- The texts that ran in some calls. -/
def ran (calls : List Call) : List String := (calls.filter runs).filterMap text?

theorem texts_append (first later : List Call) :
    texts (first ++ later) = texts first ++ texts later := List.filterMap_append

theorem ran_append (first later : List Call) : ran (first ++ later) = ran first ++ ran later := by
  rw [ran, List.filter_append, List.filterMap_append]
  rfl

/-- The call by which a statement was handed over. -/
def ofAnswer (answer : Statement × Except ScriptError Nat) : Call :=
  .execute answer.1.text answer.2

end Call

/-- Between two worlds these texts were handed over and these ran, in this order. -/
def Recorded.Made (w after : World (Resilient (Recorded σ))) (handed ran : List String) : Prop :=
  ∃ calls, after.session.inner.calls = w.session.inner.calls ++ calls ∧
    (∀ text, text ∈ Call.texts calls ↔ text ∈ handed) ∧ Call.ran calls = ran

structure Recorded.IsFor (sql : String) (call : Except ScriptError α → Call) : Prop where
  text : ∀ answer, (call answer).text? = some sql
  runs : ∀ answer, (call answer).runs = answer.isOk

/--
A relation between a world, the answers of a connection and the world after them. It holds of each
statement that is executed and of what follows on one another, and files have no part in it.
-/
structure Connection.Tracks (c : Connection σ)
    (track : World σ → List (Statement × Except ScriptError Nat) → World σ → Prop) : Prop where
  refl : ∀ w, track w [] w
  trans : ∀ {w middle after first later}, track w first middle → track middle later after →
    track w (first ++ later) after
  execute : ∀ (s : Statement) w, track w [(s, (c.execute s.text w).1)] (c.execute s.text w).2
  files : ∀ {w after answers} (files : FileTree), track w answers after →
    track w answers { after with files }

namespace Connection.Tracks

variable {c : Connection σ}
  {track : World σ → List (Statement × Except ScriptError Nat) → World σ → Prop}

theorem pass (h : c.Tracks track) (statements : List Statement) (w : World σ) :
    track w (c.pass statements w).1.answers (c.pass statements w).2 := by
  induction statements generalizing w with
  | nil => exact h.refl w
  | cons s rest ih =>
      rw [Connection.pass_cons]
      exact h.trans (h.execute s w) (ih _)

theorem of_pass (h : c.Tracks track) {statements : List Statement} {w after : World σ} {pass : Pass}
    (hpass : c.pass statements w = (pass, after)) : track w pass.answers after := by
  have htrack := h.pass statements w
  rwa [hpass] at htrack

end Connection.Tracks

theorem Connection.tracks_recorded (c : Connection σ) : c.recorded.Tracks fun w answers after =>
    after.session.calls = w.session.calls ++ answers.map Call.ofAnswer where
  refl w := (List.append_nil _).symm
  trans hfirst hlater := by rw [hlater, hfirst, List.map_append, List.append_assoc]
  execute _ _ := rfl
  files _ h := h

end SqlScript
