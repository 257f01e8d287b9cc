import SqlScript.Proofs.Retry.Report

/-!
# What an exhausted retry leaves

Once a round was made, the archive of an exhausted retry holds the failures of the last one. If no
round is allowed, the archive is the batch as it was given, and the failures are what a scan makes of
its texts. These are the same if and only if every text is repeated by the scan:
`Retry.Plan.failed_of_exhausted`.
-/

namespace SqlScript

variable {σ : Type}

namespace Retry

/-- The failures that a report lists after some rounds are those whose texts are left. -/
theorem Report.Describes.map_text_failed {report : Report} {started : Nat} {failed : List Statement}
    {rounds : List Round} (h : report.Describes started failed rounds) (hne : rounds ≠ [])
    (texts : List String) :
    report.outcome.failed.map Statement.text = textsLeft texts rounds := by
  have hlast := List.getLast?_eq_some_getLast hne
  rw [h.failed_eq, textsLeft_of_mem_getLast? texts hlast, lastFailed, hlast]
  rfl

namespace Plan

variable {p : Plan} {texts : List String}

/-- The plan reads the text as one statement, and that statement is the text. -/
def Repeats (p : Plan) (text : String) : Prop :=
  split text = [⟨0, text⟩] ∧ isExcluded (p.excluded.getD []) text = false

theorem map_text_statements_eq (p : Plan) (texts : List String) :
    (p.statements texts).map Statement.text =
      (texts.flatMap fun text => (split text).map Statement.text).filter
        fun text => ! isExcluded (p.excluded.getD []) text := by
  rw [← map_text_statementsOf, List.filter_map, statements]
  cases p.excluded with
  | none =>
      have hall : (statementsOf texts).filter
          ((fun text => ! isExcluded [] text) ∘ Statement.text) = statementsOf texts :=
        List.filter_eq_self.2 fun _ _ => rfl
      rw [Option.getD_none, hall]
  | some leads => rfl

theorem statements_ne_nil_iff : p.statements texts ≠ [] ↔
    ∃ text ∈ texts, ∃ s ∈ split text, isExcluded (p.excluded.getD []) s.text = false := by
  rw [← not_iff_not, not_not, ← List.map_eq_nil_iff (f := Statement.text), map_text_statements_eq,
    List.filter_eq_nil_iff]
  simp only [List.forall_mem_flatMap, List.forall_mem_map, Bool.not_eq_true', not_exists, not_and]

theorem Repeats.isUnit {text : String} (h : p.Repeats text) : Scan.IsUnit text.toList := by
  have hmem : (⟨0, text⟩ : Statement) ∈ split text := by
    rw [h.1]
    exact List.mem_singleton_self _
  exact isUnit_of_mem_split hmem

theorem Repeats.bare_eq {text : String} (h : p.Repeats text) : Text.bare text = text := by
  have hsplit := (split_of_isUnit h.isUnit).symm.trans h.1
  exact congrArg Statement.text (List.singleton_inj.1 hsplit)

/--
The statements have the texts that they were read from if and only if each text is repeated. No
text can be lost and made up for by another one, since every statement that is read is a unit.
-/
theorem map_text_statements_eq_iff :
    (p.statements texts).map Statement.text = texts ↔ ∀ text ∈ texts, p.Repeats text := by
  have hfilters := p.filtersBy_excluded
  constructor
  · intro h
    have hkeeps : Keeps (p.excluded.getD []) texts := by
      intro text hmem
      rw [← h] at hmem
      obtain ⟨s, hs, rfl⟩ := List.mem_map.1 hmem
      exact keeps_of_mem_statements hs
    rw [statements_of_keeps hfilters hkeeps, Statement.map_text_number] at h
    have hbare : ∀ text ∈ texts, Text.bare text = text :=
      List.map_inj_left.1 (h.trans (List.map_id texts).symm)
    intro text hmem
    refine ⟨?_, (hkeeps text hmem).2⟩
    rw [split_of_isUnit (hkeeps text hmem).1, hbare text hmem]
  · intro h
    have hkeeps : Keeps (p.excluded.getD []) texts :=
      fun text hmem => ⟨(h text hmem).isUnit, (h text hmem).2⟩
    exact map_text_statements hfilters hkeeps fun text hmem => (h text hmem).bare_eq

/--
An exhausted retry names an archive that is not empty. If rounds were made, it holds the failures of
the last one. If none is allowed, it is the batch, and the failures are the statements of its texts:
there is one if and only if a text has a statement that is not excluded, and the archive stores the
failures if and only if every text is repeated.
-/
theorem failed_of_exhausted (p : Plan) (c : Connection σ) (batch : Archive.Batch) (w : World σ)
    {report : Report} (hreport : (p.retry c batch w).1.result = .ok report)
    (hstatus : report.status = .exhausted) :
    let after := (p.retry c batch w).2
    ∃ left texts, report.archive = some left ∧ left.Stores after.files texts ∧ texts ≠ [] ∧
      (0 < p.maxAttempts → report.outcome.failed.map Statement.text = texts) ∧
      (p.maxAttempts = 0 →
        left = batch ∧ after = w ∧ batch.read w.files = .ok texts ∧
          report.outcome.failed = p.statements texts) ∧
      (report.outcome.failed ≠ [] ↔ 0 < p.maxAttempts ∨
        ∃ text ∈ texts, ∃ s ∈ split text, isExcluded (p.excluded.getD []) s.text = false) ∧
      (report.outcome.failed.map Statement.text = texts ↔
        0 < p.maxAttempts ∨ ∀ text ∈ texts, p.Repeats text) := by
  intro after
  obtain ⟨texts, hread⟩ := exists_texts_of_retry hreport
  have hran := p.ran_retry c (Archive.Batch.stores_of_read hread)
  cases hran.ends hreport with
  | resolved status => cases hstatus.symm.trans status
  | @exhausted left status archive ne_nil stores length_eq =>
      refine ⟨left, _, archive, stores, ne_nil, ?_⟩
      by_cases hzero : p.maxAttempts = 0
      · have hnone := List.length_eq_zero_iff.1 (length_eq.trans hzero)
        rw [hnone] at ne_nil ⊢
        have hretry := retry_of_maxAttempts_eq_zero (c := c) hzero hread ne_nil
        have hafter : after = w := congrArg Prod.snd hretry
        rw [hretry] at hreport
        cases hreport
        cases archive
        have hpos : ¬ 0 < p.maxAttempts := by omega
        refine ⟨fun h => absurd h hpos, fun _ => ⟨rfl, hafter, hread, rfl⟩, ?_, ?_⟩
        · rw [or_iff_right hpos]
          exact statements_ne_nil_iff
        · rw [or_iff_right hpos]
          exact map_text_statements_eq_iff
      · have hpos : 0 < p.maxAttempts := Nat.pos_of_ne_zero hzero
        have hsome : (p.retry c batch w).1.rounds ≠ [] := by
          rw [← List.length_pos_iff, length_eq]
          exact hpos
        have hsame := (hran.describes hreport).map_text_failed hsome texts
        have hne : report.outcome.failed ≠ [] := by
          intro hnil
          rw [← hsame, hnil] at ne_nil
          exact ne_nil rfl
        exact ⟨fun _ => hsame, fun h => absurd h hzero, iff_of_true hne (.inl hpos),
          iff_of_true hsame (.inl hpos)⟩

/-- A batch of one comment, of which no round is allowed, is left with no failure. -/
theorem failed_of_exhausted_by_comment :
    let p : Plan := ⟨⟨⟨"fails"⟩, .parallel⟩, "x", 0, none⟩
    let seeds : FileTree := { FileTree.empty with
      nodes := [(["work"], .directory), (["work", "0.sql"], .file "-- note".toUTF8)] }
    let ran := p.retry Scripted.connection ⟨⟨"."⟩, [⟨0, ⟨"0.sql"⟩⟩]⟩
      ⟨Scripted.fresh, seeds, .ofSeconds 0⟩
    ∃ report left, ran.1.result = .ok report ∧ report.status = .exhausted ∧
      report.outcome.failed = [] ∧ report.archive = some left ∧
      left.read ran.2.files = .ok ["-- note"] ∧ ¬ p.Repeats "-- note" := by
  intro p seeds
  have hlaw := @failed_of_exhausted _ p Scripted.connection ⟨⟨"."⟩, [⟨0, ⟨"0.sql"⟩⟩]⟩
    ⟨Scripted.fresh, seeds, .ofSeconds 0⟩
  have hrun :
      let ran := p.retry Scripted.connection ⟨⟨"."⟩, [⟨0, ⟨"0.sql"⟩⟩]⟩
        ⟨Scripted.fresh, seeds, .ofSeconds 0⟩
      ran.1.result.toOption.map (fun report => (report.status, report.outcome.failed)) =
        some (.exhausted, []) := by decide +kernel
  have hseeds : Archive.Batch.read seeds ⟨⟨"."⟩, [⟨0, ⟨"0.sql"⟩⟩]⟩ = .ok ["-- note"] := by
    rfl
  generalize p.retry Scripted.connection ⟨⟨"."⟩, [⟨0, ⟨"0.sql"⟩⟩]⟩
    ⟨Scripted.fresh, seeds, .ofSeconds 0⟩ = ran at hlaw hrun ⊢
  dsimp only at hlaw hrun ⊢
  cases hreport : ran.1.result with
  | error e =>
      rw [hreport] at hrun
      cases hrun
  | ok report =>
      rw [hreport] at hrun
      obtain ⟨hstatus, hfailed⟩ := Prod.mk.inj (Option.some.inj hrun)
      obtain ⟨left, texts, harchive, hstores, -, -, hnone, -, hrepeats⟩ := hlaw hreport hstatus
      obtain ⟨rfl, hafter, -⟩ := hnone rfl
      rw [hafter] at hstores ⊢
      obtain rfl := hstores.eq_of_read hseeds
      refine ⟨report, _, rfl, hstatus, hfailed, harchive, hseeds, fun h => ?_⟩
      have hsame := hrepeats.2 (.inr (List.forall_mem_singleton.2 h))
      rw [hfailed] at hsame
      cases hsame

end Plan

end Retry

end SqlScript
