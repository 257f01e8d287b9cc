import Mathlib.Algebra.Group.Action.Defs
import Mathlib.Algebra.Order.BigOperators.Group.List
import Mathlib.Algebra.Order.Ring.Nat
import Mathlib.Data.List.Chain
import SqlScript.Proofs.Retry.Calls
import SqlScript.Proofs.Retry.Units

/-!
# What later rounds retry

The statements of the first round can be anything that a scan finds in the archived texts. They are
units that are not excluded, so each later round runs the failures of the round before it, one
statement for each and none left out: `Retry.Plan.rounds_repeat_failures`.
-/

namespace SqlScript

variable {σ : Type}

namespace Retry

variable {p : Plan} {c : Connection σ} {left : Nat} {counter : Counter} {folded : Option Outcome}
  {texts : List String} {w last : World σ} {run : Run}

/-- How many statements a round hands over. -/
def Round.size (round : Round) : Nat := round.pass.statements.length

/-! ## From one round to the next -/

theorem Plan.Ran.statements_head (h : p.Ran c left counter folded texts w run last) :
    ∀ round ∈ run.rounds.head?, round.pass.statements = p.statements texts := by
  intro round hround
  cases h with
  | noneLeft => cases hround
  | unread => cases hround
  | exhausted => cases hround
  | clean hne hpass hclean =>
      cases hround
      exact Connection.statements_of_pass hpass
  | unarchived hne hpass hfailed harchive =>
      cases hround
      exact Connection.statements_of_pass hpass
  | again hne hpass hfailed harchive stores rest =>
      cases hround
      exact Connection.statements_of_pass hpass

/-- Each round after the first one reads the texts of the failures before it. -/
theorem Plan.Ran.isChain (h : p.Ran c left counter folded texts w run last) :
    run.rounds.IsChain fun round next =>
      next.pass.statements = p.statements (round.pass.failed.map Statement.text) := by
  induction h with
  | noneLeft => exact .nil
  | unread => exact .nil
  | exhausted => exact .nil
  | clean => exact .singleton _
  | unarchived => exact .singleton _
  | again hne hpass hfailed harchive stores rest ih =>
      exact List.isChain_cons.2 ⟨rest.statements_head, ih⟩

theorem Plan.Ran.length_rounds_le (h : p.Ran c left counter folded texts w run last) :
    run.rounds.length ≤ left := by
  induction h with
  | noneLeft => exact Nat.zero_le _
  | unread => exact Nat.zero_le _
  | exhausted => exact Nat.zero_le _
  | clean => exact Nat.succ_le_succ (Nat.zero_le _)
  | unarchived => exact Nat.succ_le_succ (Nat.zero_le _)
  | again hne hpass hfailed harchive stores rest ih => exact Nat.succ_le_succ ih

theorem Plan.filtersBy_excluded (p : Plan) : p.FiltersBy (p.excluded.getD []) := by
  intro excluded hexcluded
  rw [Option.mem_def.1 hexcluded, Option.getD_some]

theorem isUnit_of_mem_statementsOf {s : Statement} (h : s ∈ statementsOf texts) :
    Scan.IsUnit s.text.toList := by
  have htext := Statement.text_mem_of_mem_number h
  obtain ⟨found, hfound, hs⟩ := List.mem_map.1 htext
  obtain ⟨text, _, hsplit⟩ := List.mem_flatMap.1 hfound
  rw [← hs]
  exact isUnit_of_mem_split hsplit

/-- Whatever texts a round reads, it hands over units that are not excluded. -/
theorem Plan.keeps_of_mem_statements {s : Statement} (h : s ∈ p.statements texts) :
    Scan.IsUnit s.text.toList ∧ isExcluded (p.excluded.getD []) s.text = false := by
  rw [Plan.statements] at h
  cases hexcluded : p.excluded with
  | none =>
      rw [hexcluded] at h
      exact ⟨isUnit_of_mem_statementsOf h, rfl⟩
  | some leads =>
      rw [hexcluded] at h
      exact ⟨isUnit_of_mem_statementsOf (mem_of_mem_keepAllowed h),
        isExcluded_of_mem_keepAllowed h⟩

theorem Plan.keeps_failed {pass : Pass} (h : pass.statements = p.statements texts) :
    Keeps (p.excluded.getD []) (pass.failed.map Statement.text) := by
  intro text hmem
  obtain ⟨s, hs, rfl⟩ := List.mem_map.1 hmem
  have hs := Pass.mem_statements_of_mem_failed hs
  rw [h] at hs
  exact keeps_of_mem_statements hs

/-- A round that starts from the failures of another one hands over one statement for each. -/
theorem Plan.statements_of_failed {pass : Pass} (h : pass.statements = p.statements texts) :
    p.statements (pass.failed.map Statement.text) =
      Statement.number (pass.failed.map fun s => Text.bare s.text) := by
  rw [statements_of_keeps p.filtersBy_excluded (keeps_failed h), List.map_map]
  rfl

theorem Plan.Ran.isChain_number (h : p.Ran c left counter folded texts w run last) :
    run.rounds.IsChain fun round next => next.pass.statements =
      Statement.number (round.pass.failed.map fun s => Text.bare s.text) := by
  apply h.isChain.imp_of_mem_imp
  intro round next hround _ hnext
  obtain ⟨texts, _, hstatements⟩ := h.exists_statements (fun _ => True) trivial
    (fun _ _ _ _ => trivial) round hround
  rw [hnext, statements_of_failed hstatements]

/-! ## Texts and sizes over all rounds -/

theorem exists_rel_of_mem_tail {α : Type} {R : α → α → Prop} {l : List α} {b : α}
    (h : l.IsChain R) (hb : b ∈ l.tail) : ∃ a ∈ l, R a b := by
  induction h with
  | nil => simp at hb
  | singleton a => simp at hb
  | @cons_cons first second rest hfirst hrest ih =>
      rcases List.mem_cons.1 hb with rfl | hb
      · exact ⟨first, List.mem_cons_self, hfirst⟩
      · obtain ⟨a, ha, hab⟩ := ih hb
        exact ⟨a, List.mem_cons_of_mem _ ha, hab⟩

/-- What is bare already is not changed when it fails and is scanned again. -/
theorem map_text_number_bare {before : List Statement} {pass : Pass}
    (hpass : pass.statements = Statement.number (before.map fun s => Text.bare s.text)) :
    (Statement.number (pass.failed.map fun s => Text.bare s.text)).map Statement.text =
      pass.failed.map Statement.text := by
  rw [Statement.map_text_number]
  apply List.map_congr_left
  intro s hs
  have hs := Pass.mem_statements_of_mem_failed hs
  rw [hpass] at hs
  have htext := Statement.text_mem_of_mem_number hs
  obtain ⟨t, _, ht⟩ := List.mem_map.1 htext
  rw [← ht, Text.bare_bare]

theorem Round.size_le_of_number {round next : Round}
    (h : next.pass.statements =
      Statement.number (round.pass.failed.map fun s => Text.bare s.text)) :
    next.size ≤ round.size := by
  have hlength := congrArg List.length (congrArg (List.map Statement.text) h)
  rw [Statement.map_text_number, List.length_map, List.length_map] at hlength
  rw [size, hlength]
  exact round.pass.failed_sublist.length_le

theorem length_calls (rounds : List Round) :
    (calls rounds).length = (rounds.map Round.size).sum := by
  rw [calls, List.length_map, answers, List.length_flatMap]
  congr 1
  refine List.map_congr_left fun round _ => ?_
  rw [Round.size, Pass.statements, List.length_map]

/-- Rounds that do not grow make as many calls at most as all of them with the size of the first. -/
theorem length_calls_le {rounds : List Round} {bound : Nat}
    (h : (rounds.map Round.size).Pairwise (· ≥ ·)) (hbound : rounds.length ≤ bound) :
    (calls rounds).length ≤ bound * (rounds.head?.map Round.size).getD 0 := by
  rw [length_calls]
  cases rounds with
  | nil => simp
  | cons first later =>
      rw [List.map_cons] at h
      have hall : ∀ size ∈ (first :: later).map Round.size, size ≤ first.size := by
        rw [List.map_cons, List.forall_mem_cons]
        exact ⟨Nat.le_refl _, (List.pairwise_cons.1 h).1⟩
      have hsum := List.sum_le_card_nsmul _ _ hall
      rw [List.length_map, smul_eq_mul] at hsum
      exact hsum.trans (Nat.mul_le_mul_right _ hbound)

/--
Each round but the first hands over the failures of the round before it in their order, without the
semicolons and blanks at their ends and numbered from zero. From the third round on the texts are
those that failed. So rounds do not grow, and all of them together make no more calls than as many
rounds as are allowed of the first one's size.
-/
theorem Plan.rounds_repeat_failures (p : Plan) (c : Connection σ) (batch : Archive.Batch)
    (w : World σ) :
    let rounds := (p.retry c batch w).1.rounds
    (rounds.IsChain fun round next => next.pass.statements =
      Statement.number (round.pass.failed.map fun s => Text.bare s.text)) ∧
    (rounds.tail.IsChain fun round next =>
      next.pass.statements.map Statement.text = round.pass.failed.map Statement.text) ∧
    (rounds.map Round.size).Pairwise (· ≥ ·) ∧
    (p.retry c.recorded batch (w.map .start)).2.session.calls = calls rounds ∧
    (calls rounds).length ≤ p.maxAttempts * (rounds.head?.map Round.size).getD 0 := by
  intro rounds
  have hcalls := p.calls_retry c batch w
  obtain ⟨hchain, hlength⟩ : (rounds.IsChain fun round next => next.pass.statements =
      Statement.number (round.pass.failed.map fun s => Text.bare s.text)) ∧
      rounds.length ≤ p.maxAttempts := by
    cases hread : batch.read w.files with
    | error e =>
        have hnone : rounds = [] :=
          congrArg (fun ran => ran.1.rounds) (p.retry_of_read_error c hread)
        rw [hnone]
        exact ⟨.nil, Nat.zero_le _⟩
    | ok texts =>
        have hran := p.ran_retry c (Archive.Batch.stores_of_read hread)
        exact ⟨hran.isChain_number, hran.length_rounds_le⟩
  have hsizes : (rounds.map Round.size).Pairwise (· ≥ ·) := by
    apply List.IsChain.pairwise
    rw [List.isChain_map]
    exact hchain.imp fun _ _ => Round.size_le_of_number
  refine ⟨hchain, ?_, hsizes, hcalls, length_calls_le hsizes hlength⟩
  -- A round that is not the first one ran bare texts, and those that failed stay as they are.
  apply hchain.tail.imp_of_mem_imp
  intro round next hround _ hnext
  obtain ⟨before, _, hbefore⟩ := exists_rel_of_mem_tail hchain hround
  rw [hnext]
  exact map_text_number_bare hbefore

end Retry

end SqlScript
