import SqlScript.Connection.IntegerQueries
import SqlScript.Proofs.Connection.Calls
import SqlScript.Proofs.Files.Tree

/-!
# Connections and files

What the calls of a pass make of the files is written down with them: each call starts from the files
that the one before it left (`Recorded.links_pass`). So if each call leaves alone what a path leads
to, then so does the pass, whatever the connection might have done in other calls.
-/

namespace SqlScript

open FileTree

variable {σ : Type} {c : Connection σ}

/-! ## Relations that calls carry on -/

namespace Resilient

/--
A relation between worlds that holds of the calls of a connection and of calls after one another, and
in which the count of sessions has no part.
-/
structure Carries (c : Connection σ) (rel : World (Resilient σ) → World (Resilient σ) → Prop) :
    Prop where
  refl : ∀ w, rel w w
  trans : ∀ {w middle after}, rel w middle → rel middle after → rel w after
  count : ∀ {w after}, rel w after → rel w (count after)
  execute : ∀ sql w, rel w (onInner (c.execute sql) w).2
  disconnect : ∀ w, rel w (onInner c.disconnect w).2
  reconnect : ∀ w, rel w (onInner c.reconnect w).2

namespace Carries

variable {rel : World (Resilient σ) → World (Resilient σ) → Prop}

theorem rel_reconnect (h : Carries c rel) (w : World (Resilient σ)) :
    rel w (Resilient.reconnect c w).2 := by
  have hopened := h.reconnect w
  unfold Resilient.reconnect
  rcases hanswer : onInner c.reconnect w with ⟨_ | _, after⟩
  · rw [hanswer] at hopened
    exact hopened
  · rw [hanswer] at hopened
    exact h.count hopened

theorem rel_cycle (h : Carries c rel) (w : World (Resilient σ)) : rel w (cycle c w).2 := by
  have hcycle := h.trans (h.disconnect w) (h.rel_reconnect (onInner c.disconnect w).2)
  unfold cycle
  rcases hanswer : Resilient.reconnect c (onInner c.disconnect w).2 with ⟨_ | _, after⟩
  · rwa [hanswer] at hcycle
  · rwa [hanswer] at hcycle

theorem rel_attempt (h : Carries c rel) (sql : String) (retries : Nat) (w : World (Resilient σ)) :
    rel w (attempt c (c.execute sql) retries w).2 := by
  induction retries generalizing w with
  | zero => exact h.execute sql w
  | succ retries ih =>
      have hfirst := h.execute sql w
      rcases hanswer : onInner (c.execute sql) w with ⟨e | rows, after⟩
      · rw [hanswer] at hfirst
        by_cases hfault : e.isConnectionFault = true
        · have hcycle := h.rel_cycle after
          rcases hopened : cycle c after with ⟨refusal | _, fresh⟩
          · rw [hopened] at hcycle
            simp only [attempt, hanswer, if_pos hfault, hopened]
            exact h.trans hfirst hcycle
          · rw [hopened] at hcycle
            simp only [attempt, hanswer, if_pos hfault, hopened]
            exact h.trans hfirst (h.trans hcycle (ih fresh))
        · simp only [attempt, hanswer, if_neg hfault]
          exact hfirst
      · rw [hanswer] at hfirst
        simp only [attempt, hanswer]
        exact hfirst

theorem rel_pass (h : Carries c rel) (attempts : Nat) (statements : List Statement)
    (w : World (Resilient σ)) : rel w ((c.resilient attempts).pass statements w).2 := by
  induction statements generalizing w with
  | nil => exact h.refl w
  | cons s rest ih =>
      rw [Connection.pass_cons]
      exact h.trans (h.rel_attempt s.text _ w) (ih _)

end Carries

end Resilient

/-! ## What calls make of files -/

namespace Recorded

open Resilient

/-- Each span starts from the files that the one before it left. -/
def Linked : FileTree → List (FileTree × FileTree) → FileTree → Prop
  | t, [], last => last = t
  | t, span :: rest, last => span.1 = t ∧ Linked span.2 rest last

theorem Linked.append {t middle last : FileTree} {first later : List (FileTree × FileTree)}
    (h : Linked t first middle) (hlater : Linked middle later last) :
    Linked t (first ++ later) last := by
  induction first generalizing t with
  | nil =>
      obtain rfl : middle = t := h
      exact hlater
  | cons span rest ih => exact ⟨h.1, ih h.2⟩

theorem Linked.spares {t last : FileTree} {spans : List (FileTree × FileTree)} {root : Path}
    (h : Linked t spans last) (hspares : ∀ span ∈ spans, span.1.Spares root span.2) :
    t.Spares root last := by
  induction spans generalizing t with
  | nil =>
      obtain rfl : last = t := h
      exact .refl root _
  | cons span rest ih =>
      obtain ⟨rfl, hrest⟩ := h
      obtain ⟨hfirst, hlater⟩ := List.forall_mem_cons.1 hspares
      exact hfirst.trans (ih hrest hlater)

/-- All that the files went through between two worlds was written down. -/
def Links (w after : World (Resilient (Recorded σ))) : Prop :=
  ∃ spans, after.session.inner.spans = w.session.inner.spans ++ spans ∧
    Linked w.files spans after.files

/-- Of each call between two worlds the files before and after it are in a relation. -/
def Spans (rel : FileTree → FileTree → Prop) (w after : World (Resilient (Recorded σ))) : Prop :=
  ∃ spans, after.session.inner.spans = w.session.inner.spans ++ spans ∧
    ∀ span ∈ spans, rel span.1 span.2

/-- Each call between two worlds left alone what a path leads to. -/
def Spared (root : Path) (w after : World (Resilient (Recorded σ))) : Prop :=
  Spans (FileTree.Spares root) w after

variable {rel : FileTree → FileTree → Prop} {w middle after : World (Resilient (Recorded σ))}

theorem carries_links (c : Connection σ) : Carries c.recorded Links where
  refl w := ⟨[], (List.append_nil _).symm, rfl⟩
  trans := by
    rintro w middle after ⟨first, hfirst, hlinked⟩ ⟨later, hlater, hlinked'⟩
    exact ⟨first ++ later, by rw [hlater, hfirst, List.append_assoc], hlinked.append hlinked'⟩
  count h := h
  execute _ w := ⟨[(w.files, _)], rfl, rfl, rfl⟩
  disconnect w := ⟨[(w.files, _)], rfl, rfl, rfl⟩
  reconnect w := ⟨[(w.files, _)], rfl, rfl, rfl⟩

/-- A pass leaves the files that the last one of its calls left. -/
theorem links_pass {attempts : Nat} {statements : List Statement} {pass : Pass}
    (hpass : (c.recorded.resilient attempts).pass statements w = (pass, after)) : Links w after := by
  have hlinks := (carries_links c).rel_pass attempts statements w
  rwa [hpass] at hlinks

theorem Spans.refl (w : World (Resilient (Recorded σ))) : Spans rel w w :=
  ⟨[], (List.append_nil _).symm, fun _ hmem => absurd hmem List.not_mem_nil⟩

theorem Spans.trans (h : Spans rel w middle) (h' : Spans rel middle after) :
    Spans rel w after := by
  obtain ⟨first, hfirst, hrel⟩ := h
  obtain ⟨later, hlater, hrel'⟩ := h'
  refine ⟨first ++ later, by rw [hlater, hfirst, List.append_assoc], fun span hmem => ?_⟩
  exact (List.mem_append.1 hmem).elim (hrel span) (hrel' span)

theorem Spans.mono {more : FileTree → FileTree → Prop} (h : Spans rel w after)
    (hmore : ∀ t later, rel t later → more t later) : Spans more w after := by
  obtain ⟨spans, hspans, hrel⟩ := h
  exact ⟨spans, hspans, fun span hmem => hmore _ _ (hrel span hmem)⟩

/-- What is so of all calls is so of those before a moment and of those after it. -/
theorem Spans.split (h : Spans rel w after) {all : FileTree → FileTree → Prop}
    (hfirst : Spans all w middle) (hlater : Spans all middle after) :
    Spans rel w middle ∧ Spans rel middle after := by
  obtain ⟨spans, hspans, hrel⟩ := h
  obtain ⟨first, hfirst, -⟩ := hfirst
  obtain ⟨later, hlater, -⟩ := hlater
  rw [hlater, hfirst, List.append_assoc, List.append_cancel_left_eq] at hspans
  subst hspans
  exact ⟨⟨first, hfirst, fun span hmem => hrel span (List.mem_append_left _ hmem)⟩,
    ⟨later, hlater, fun span hmem => hrel span (List.mem_append_right _ hmem)⟩⟩

/-- What every operation of a connection makes of files. -/
structure Does (c : Connection σ) (rel : FileTree → FileTree → Prop) : Prop where
  execute : ∀ sql w, rel w.files (c.execute sql w).2.files
  disconnect : ∀ w, rel w.files (c.disconnect w).2.files
  reconnect : ∀ w, rel w.files (c.reconnect w).2.files

theorem Does.any (c : Connection σ) : Does c fun _ _ => True :=
  ⟨fun _ _ => trivial, fun _ => trivial, fun _ => trivial⟩

theorem Does.carries (h : Does c rel) : Carries c.recorded (Spans rel) where
  refl := Spans.refl
  trans := Spans.trans
  count h := h
  execute sql w := by
    refine ⟨[(w.files, _)], rfl, List.forall_mem_singleton.2 ?_⟩
    exact h.execute sql (w.withSession w.session.inner.inner)
  disconnect w := by
    refine ⟨[(w.files, _)], rfl, List.forall_mem_singleton.2 ?_⟩
    exact h.disconnect (w.withSession w.session.inner.inner)
  reconnect w := by
    refine ⟨[(w.files, _)], rfl, List.forall_mem_singleton.2 ?_⟩
    exact h.reconnect (w.withSession w.session.inner.inner)

/-- What is written between passes is no call. -/
theorem Does.tracks (h : Does c rel) (attempts : Nat) :
    (c.recorded.resilient attempts).Tracks fun w _ after => Spans rel w after where
  refl := Spans.refl
  trans := Spans.trans
  execute s w := h.carries.rel_attempt s.text _ w
  files _ h := h

/-- Calls that leave alone what a path leads to make a pass that does. -/
theorem Spared.of_pass {root : Path} {attempts : Nat} {statements : List Statement} {pass : Pass}
    (h : Spared root w after)
    (hpass : (c.recorded.resilient attempts).pass statements w = (pass, after)) :
    w.files.Spares root after.files := by
  obtain ⟨spans, hspans, hspares⟩ := h
  obtain ⟨linked, hlinked, hlinks⟩ := links_pass hpass
  rw [hlinked, List.append_cancel_left_eq] at hspans
  subst hspans
  exact hlinks.spares hspares

end Recorded

/-! ## Connections that leave all files alone -/

/-- Queries for integers touch no file. -/
theorem IntegerQueries.does_connection : Recorded.Does connection (· = ·) where
  execute sql w := by
    simp only [connection, request]
    split_ifs <;> rfl
  disconnect _ := rfl
  reconnect _ := rfl

end SqlScript
