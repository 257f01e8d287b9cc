import SqlScript.Proofs.Retry.Rounds
import SqlScript.Proofs.Scan.Unit

/-!
# Rounds over units

Where every archived text is a unit that is not excluded, a round hands over one statement for each
text: the text without semicolons and blanks at its end. The failures of such a round are again such
texts.
-/

namespace SqlScript

open Scan

variable {p : Retry.Plan} {leads texts : List String} {pass : Pass}

/-! ## Exclusion -/

theorem isExcluded_of_prefix {part text : String}
    (hpart : part.toList <+: text.toList) (h : isExcluded leads text = false) :
    isExcluded leads part = false := by
  rw [isExcluded, List.any_eq_false] at *
  intro lead hmem hlead
  rw [List.isPrefixOf_iff_prefix] at hlead
  exact h lead hmem (List.isPrefixOf_iff_prefix.2 (hlead.trans hpart))

theorem isExcluded_bare {text : String} (h : isExcluded leads text = false) :
    isExcluded leads (Text.bare text) = false := by
  refine isExcluded_of_prefix ?_ h
  rw [Text.toList_bare]
  exact Text.trimTrailing_prefix _

theorem isExcluded_of_mem_keepAllowed {statements : List Statement}
    {s : Statement} (h : s ∈ keepAllowed leads statements) : isExcluded leads s.text = false := by
  simpa using (List.mem_filter.1 h).2

theorem mem_of_mem_keepAllowed {statements : List Statement} {s : Statement}
    (h : s ∈ keepAllowed leads statements) : s ∈ statements :=
  (List.mem_filter.1 h).1

theorem keepAllowed_of_forall {statements : List Statement}
    (h : ∀ s ∈ statements, isExcluded leads s.text = false) :
    keepAllowed leads statements = statements := by
  refine List.filter_eq_self.2 fun s hmem => ?_
  rw [h s hmem, Bool.not_false]

/-! ## Units -/

theorem Statement.text_mem_of_mem_number {s : Statement} (h : s ∈ Statement.number texts) :
    s.text ∈ texts := by
  have htext : s.text ∈ (Statement.number texts).map Statement.text := List.mem_map_of_mem h
  rwa [Statement.map_text_number] at htext

theorem isUnit_bare {text : String} (h : IsUnit text.toList) : IsUnit (Text.bare text).toList := by
  rw [Text.toList_bare]
  exact h.trimTrailing

theorem Retry.map_text_statementsOf (texts : List String) :
    (statementsOf texts).map Statement.text =
      texts.flatMap fun text => (split text).map Statement.text := by
  rw [statementsOf, Statement.map_text_renumber, List.map_flatMap]

theorem statementsOf_of_isUnit (h : ∀ text ∈ texts, IsUnit text.toList) :
    Retry.statementsOf texts = Statement.number (texts.map Text.bare) := by
  have htexts : (texts.flatMap split).map Statement.text = texts.map Text.bare := by
    rw [List.map_flatMap, List.map_eq_flatMap]
    refine List.flatMap_congr fun text hmem => ?_
    rw [split_of_isUnit (h text hmem), List.map_singleton]
  rw [Retry.statementsOf, Statement.renumber, htexts]

/-- Each text is a unit that is not excluded. -/
def Retry.Keeps (leads texts : List String) : Prop :=
  ∀ text ∈ texts, IsUnit text.toList ∧ isExcluded leads text = false

/-- The plan excludes by these texts or not at all. -/
def Retry.Plan.FiltersBy (p : Retry.Plan) (leads : List String) : Prop :=
  ∀ excluded ∈ p.excluded, excluded = leads

theorem Retry.Keeps.map_bare (h : Keeps leads texts) : Keeps leads (texts.map Text.bare) := by
  intro text hmem
  obtain ⟨whole, hwhole, rfl⟩ := List.mem_map.1 hmem
  exact ⟨isUnit_bare (h whole hwhole).1, isExcluded_bare (h whole hwhole).2⟩

/-- Whether the plan excludes makes no difference to texts that are not excluded. -/
theorem Retry.Plan.statements_of_keeps (hfilters : p.FiltersBy leads) (h : Keeps leads texts) :
    p.statements texts = Statement.number (texts.map Text.bare) := by
  have hall := statementsOf_of_isUnit fun text hmem => (h text hmem).1
  rw [Retry.Plan.statements, hall]
  cases hexcluded : p.excluded with
  | none => rfl
  | some excluded =>
      rw [hfilters excluded hexcluded]
      refine keepAllowed_of_forall fun s hmem => ?_
      exact (h.map_bare s.text (Statement.text_mem_of_mem_number hmem)).2

theorem Retry.Plan.map_text_statements (hfilters : p.FiltersBy leads) (h : Keeps leads texts)
    (hbare : ∀ text ∈ texts, Text.bare text = text) :
    (p.statements texts).map Statement.text = texts := by
  rw [statements_of_keeps hfilters h, Statement.map_text_number]
  exact (List.map_congr_left hbare).trans (List.map_id' texts)

theorem Pass.failed_sublist (pass : Pass) : pass.failed.Sublist pass.statements :=
  List.filter_sublist.map Prod.fst

theorem Pass.mem_statements_of_mem_failed {s : Statement} (h : s ∈ pass.failed) :
    s ∈ pass.statements :=
  pass.failed_sublist.subset h

/-- What failed in a round over such texts are again such texts. -/
theorem Retry.Keeps.failed (hfilters : p.FiltersBy leads) (h : Keeps leads texts)
    (hpass : pass.statements = p.statements texts) :
    Keeps leads (pass.failed.map Statement.text) := by
  intro text hmem
  obtain ⟨s, hs, rfl⟩ := List.mem_map.1 hmem
  have hs := Pass.mem_statements_of_mem_failed hs
  rw [hpass, Plan.statements_of_keeps hfilters h] at hs
  exact h.map_bare s.text (Statement.text_mem_of_mem_number hs)

/-! ## Rounds that exclude and rounds that do not -/

namespace Retry.Plan

variable {σ : Type}

/-- Whether the rounds exclude makes no difference to texts that are not excluded. -/
theorem rounds_of_keeps {excluded : Option (List String)} (hfilters : p.FiltersBy leads)
    (hexcluded : ({ p with excluded } : Plan).FiltersBy leads) (c : Connection σ) (left : Nat)
    (counter : Counter) (folded : Option Outcome) {batch : Archive.Batch} {w : World σ}
    (stores : batch.Stores w.files texts) (h : Keeps leads texts) :
    ({ p with excluded } : Plan).rounds c left counter batch folded w =
      p.rounds c left counter batch folded w := by
  have hstatements {texts : List String} (h : Keeps leads texts) :
      ({ p with excluded } : Plan).statements texts = p.statements texts := by
    rw [statements_of_keeps hexcluded h, statements_of_keeps hfilters h]
  have hload {batch : Archive.Batch} {texts : List String} {w : World σ}
      (stores : batch.Stores w.files texts) (h : Keeps leads texts) :
      ({ p with excluded } : Plan).load w.files batch = p.load w.files batch := by
    cases hread : batch.read w.files with
    | error e => rw [load_of_read_error hread, load_of_read_error hread]
    | ok found =>
        obtain rfl := stores.eq_of_read hread
        rw [load_of_read hread, load_of_read hread, hstatements h]
  induction left generalizing counter folded batch texts w with
  | zero => simp only [rounds, exhausted, hload stores h]
  | succ left ih =>
      have hsame : ({ p with excluded } : Plan).round c (p.statements texts) w =
          p.round c (p.statements texts) w := rfl
      simp only [rounds, hload stores h]
      cases hread : batch.read w.files with
      | error e => simp only [load_of_read_error hread]
      | ok found =>
          obtain rfl := stores.eq_of_read hread
          have hround := p.ran_round c (p.statements found) w
          simp only [load_of_read hread, hsame]
          generalize p.round c (p.statements found) w = ran at hround ⊢
          cases hround with
          | clean hpass hclean => rfl
          | unarchived hpass hfailed harchive => rfl
          | @archived after pass next files hpass hfailed harchive hstores =>
              have hnext := h.failed hfilters (Connection.statements_of_pass hpass)
              simp only [ih _ _ (w := { after with files }) hstores hnext]

theorem retry_of_keeps {excluded : Option (List String)} (hfilters : p.FiltersBy leads)
    (hexcluded : ({ p with excluded } : Plan).FiltersBy leads) (c : Connection σ)
    {batch : Archive.Batch} {w : World σ} (stores : batch.Stores w.files texts)
    (h : Keeps leads texts) :
    ({ p with excluded } : Plan).retry c batch w = p.retry c batch w :=
  rounds_of_keeps hfilters hexcluded c p.maxAttempts _ none stores h

end Retry.Plan

end SqlScript
