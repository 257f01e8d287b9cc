import SqlScript.Proofs.Runner.Calls
import SqlScript.Proofs.Runner.Prepared

/-!
# What is not executed

The excluded statements of a script are left out before patterns are removed from the others, and a
round excludes statements only if it is told to. So a text that starts with an excluded one can
reach the connection when a pattern is removed from its front or when a failure is divided anew. In
scan mode and without patterns it cannot, and then it makes no difference whether rounds exclude:
`Script.run_of_reapply`.
-/

namespace SqlScript

variable {σ : Type} {script : Script} {config : Config}

/-- Where a prepared statement comes from. -/
theorem Script.exists_of_mem_prepare {s : Statement} (hs : s ∈ (script.prepare config).statements) :
    ∃ t ∈ config.splitMode.divide script.text, isExcluded config.excludedPrefixes t.text = false ∧
      (s = t ∨ config.stripPatterns ≠ [] ∧
        s = { t with text := stripText config.stripPatterns t.text }) := by
  obtain ⟨t, ht, hprepared⟩ := mem_prepare_iff.1 hs
  obtain ⟨hallowed, -, rfl⟩ := prepared?_eq_some_iff.1 hprepared
  refine ⟨t, ht, hallowed, ?_⟩
  by_cases hpatterns : config.stripPatterns = []
  · rw [hpatterns, stripped_nil (text_of_mem_divide ht).2]
    exact .inl rfl
  · exact .inr ⟨hpatterns, rfl⟩

namespace Script.Ran

variable {c : Connection σ} {w last : World (Resilient σ)} {run : Run}

theorem exists_first (h : script.Ran config c w run last) :
    ∃ first later, run.rounds = first :: later ∧
      first.pass.statements = (script.prepare config).statements := by
  cases h with
  | once hpass hends => exact ⟨_, _, rfl, Connection.statements_of_pass hpass⟩
  | unarchived hpass hfailed harchives harchive =>
      exact ⟨_, _, rfl, Connection.statements_of_pass hpass⟩
  | retried hpass hfailed harchives harchive hretried =>
      exact ⟨_, _, rfl, Connection.statements_of_pass hpass⟩

/--
Every later pass runs the statements of some texts. They keep what is true of the failures of the
first pass and passes from the texts of a round to those of its failures.
-/
theorem exists_texts (h : script.Ran config c w run last) {first : Retry.Round}
    {later : List Retry.Round} (hrounds : run.rounds = first :: later) (inv : List String → Prop)
    (hstart : ∀ pass : Pass, pass.statements = (script.prepare config).statements →
      inv (pass.failed.map Statement.text))
    (hstep : ∀ texts (pass : Pass), inv texts →
      pass.statements = (config.retryPlan script.label).statements texts →
      inv (pass.failed.map Statement.text)) :
    ∀ round ∈ later, ∃ texts, inv texts ∧
      round.pass.statements = (config.retryPlan script.label).statements texts := by
  cases h with
  | once hpass hends =>
      cases hrounds
      simp
  | unarchived hpass hfailed harchives harchive =>
      cases hrounds
      simp
  | retried hpass hfailed harchives harchive hretried =>
      cases hrounds
      have hfirst := hstart _ (Connection.statements_of_pass hpass)
      exact hretried.exists_statements inv hfirst hstep

/-- Rounds that exclude statements once more hand no excluded text over. -/
theorem isExcluded_later_of_reapply (h : script.Ran config c w run last) {first : Retry.Round}
    {later : List Retry.Round} (hrounds : run.rounds = first :: later)
    (hreapply : config.reapplyFilterOnRetry = true) {round : Retry.Round} (hround : round ∈ later)
    {s : Statement} (hs : s ∈ round.pass.statements) :
    isExcluded config.excludedPrefixes s.text = false := by
  obtain ⟨texts, _, hstatements⟩ := h.exists_texts hrounds (fun _ => True) (fun _ _ => trivial)
    (fun _ _ _ _ => trivial) round hround
  have hkept : (config.retryPlan script.label).statements texts =
      keepAllowed config.excludedPrefixes (Retry.statementsOf texts) := by
    simp [Retry.Plan.statements, Config.retryPlan, hreapply]
  rw [hstatements, hkept] at hs
  exact isExcluded_of_mem_keepAllowed hs

/-- The failures of a scanned script stay units that are not excluded, round after round. -/
theorem isExcluded_later_of_scan (h : script.Ran config c w run last) {first : Retry.Round}
    {later : List Retry.Round} (hrounds : run.rounds = first :: later)
    (hscan : config.splitMode = .scan) (hpatterns : config.stripPatterns = [])
    {round : Retry.Round} (hround : round ∈ later) {s : Statement}
    (hs : s ∈ round.pass.statements) : isExcluded config.excludedPrefixes s.text = false := by
  have hfilters := config.filtersBy_retryPlan script.label
  obtain ⟨texts, hkeeps, hstatements⟩ := h.exists_texts hrounds
    (Retry.Keeps config.excludedPrefixes) (fun _ => Script.keeps_failed hscan hpatterns)
    (fun _ _ hkeeps => hkeeps.failed hfilters) round hround
  rw [hstatements, Retry.Plan.statements_of_keeps hfilters hkeeps] at hs
  exact (hkeeps.map_bare s.text (Statement.text_mem_of_mem_number hs)).2

end Script.Ran

theorem Retry.mem_handed_iff {rounds : List Retry.Round} {text : String} :
    text ∈ Retry.handed rounds ↔ ∃ round ∈ rounds, ∃ s ∈ round.pass.statements, s.text = text := by
  simp [Retry.handed]

/--
What is handed over in the first pass comes from statements that are not excluded, and starts with
no excluded text itself if there are no patterns. A later pass hands no excluded text over if rounds
exclude statements once more. In scan mode and without patterns no pass does.
-/
theorem Script.isExcluded_handed (script : Script) (config : Config) (c : Connection σ)
    (w : World (Resilient (Recorded σ))) :
    ∃ first later, (script.run config c.recorded w).1.rounds = first :: later ∧
      Recorded.Made w (script.run config c.recorded w).2 (Retry.handed (first :: later))
        (Retry.ran (first :: later)) ∧
      (∀ s ∈ first.pass.statements, ∃ t ∈ config.splitMode.divide script.text,
        isExcluded config.excludedPrefixes t.text = false ∧
        (s = t ∨ config.stripPatterns ≠ [] ∧
          s = { t with text := stripText config.stripPatterns t.text })) ∧
      (config.stripPatterns = [] →
        ∀ text ∈ Retry.handed [first], isExcluded config.excludedPrefixes text = false) ∧
      (config.reapplyFilterOnRetry = true →
        ∀ text ∈ Retry.handed later, isExcluded config.excludedPrefixes text = false) ∧
      (config.splitMode = .scan → config.stripPatterns = [] →
        ∀ text ∈ Retry.handed (first :: later),
          isExcluded config.excludedPrefixes text = false) := by
  have hran := script.ran_run config c.recorded w
  obtain ⟨first, later, hrounds, hfirst⟩ := hran.exists_first
  have hmade := script.made_run config c w
  rw [hrounds] at hmade
  have horigin {s : Statement} (hs : s ∈ first.pass.statements) :=
    Script.exists_of_mem_prepare (hfirst ▸ hs)
  have hallowed (hpatterns : config.stripPatterns = []) :
      ∀ text ∈ Retry.handed [first], isExcluded config.excludedPrefixes text = false := by
    intro text hmem
    obtain ⟨round, hround, s, hs, rfl⟩ := Retry.mem_handed_iff.1 hmem
    rw [List.mem_singleton.1 hround] at hs
    obtain ⟨t, _, ht, rfl | ⟨hne, _⟩⟩ := horigin hs
    · exact ht
    · exact absurd hpatterns hne
  refine ⟨first, later, hrounds, hmade, fun s => horigin, hallowed, ?_, ?_⟩
  · intro hreapply text hmem
    obtain ⟨round, hround, s, hs, rfl⟩ := Retry.mem_handed_iff.1 hmem
    exact hran.isExcluded_later_of_reapply hrounds hreapply hround hs
  · intro hscan hpatterns text hmem
    rw [Retry.handed, List.flatMap_cons, List.mem_append] at hmem
    rcases hmem with hmem | hmem
    · exact hallowed hpatterns text (by simpa [Retry.handed] using hmem)
    · obtain ⟨round, hround, s, hs, rfl⟩ := Retry.mem_handed_iff.1 hmem
      exact hran.isExcluded_later_of_scan hrounds hscan hpatterns hround hs

/--
Against the law that no excluded text is executed: removing a pattern uncovers one, and dividing a
failure anew cuts one off.
-/
theorem Script.executes_excluded :
    let stripping := { Config.default with stripPatterns := ["dbo."] }
    let dividing := { Config.default with splitMode := .delimiter '$' }
    (stripping.IsValid ∧ isExcluded stripping.excludedPrefixes "DROP t" = true ∧
      ((Script.ofText "x" "dbo.DROP t").run stripping Scripted.connection
        (Scripted.world .fresh)).2.session.inner.executed = ["DROP t"]) ∧
    dividing.IsValid ∧ isExcluded dividing.excludedPrefixes "DROP t" = true ∧
      ((Script.ofText "x" "USE d;DROP t").run dividing Scripted.connection
        (Scripted.world { Scripted.fresh with failing := ["USE d;DROP t"] })).2.session.inner.executed =
          ["USE d", "DROP t"] := by
  decide +kernel

/-! ## Rounds that exclude once more -/

theorem Config.retryFailures_of_keeps {config : Config} {first : Pass}
    (h : Retry.Keeps config.excludedPrefixes (first.failed.map Statement.text)) (reapply : Bool)
    (c : Connection (Resilient σ)) (label : String) (w : World (Resilient σ)) :
    { config with reapplyFilterOnRetry := reapply }.retryFailures c label first w =
      config.retryFailures c label first w := by
  rcases harchive : config.archiver.archive first.failed label w.now w.files with ⟨answer, files⟩
  have harchives : { config with reapplyFilterOnRetry := reapply }.archiver.archive first.failed
      label w.now w.files = (answer, files) := harchive
  cases answer with
  | error e => simp only [retryFailures, harchive, harchives]
  | ok batch =>
      have hretry : ({ config with reapplyFilterOnRetry := reapply }.retryPlan label).retry c batch
          { w with files } = (config.retryPlan label).retry c batch { w with files } :=
        Retry.Plan.retry_of_keeps (config.filtersBy_retryPlan label)
          ({ config with reapplyFilterOnRetry := reapply }.filtersBy_retryPlan label) c
          (Archive.stores_of_archive harchive) h
      simp only [retryFailures, harchive, harchives, hretry]

theorem Script.run_of_reapply (script : Script) {config : Config} (hscan : config.splitMode = .scan)
    (hpatterns : config.stripPatterns = []) (reapply : Bool) (c : Connection σ)
    (w : World (Resilient σ)) :
    script.run { config with reapplyFilterOnRetry := reapply } c w = script.run config c w := by
  rcases hpass : (config.connection c).pass (script.prepare config).statements w with
    ⟨first, after⟩
  have hseen : ({ config with reapplyFilterOnRetry := reapply }.connection c).pass
      (script.prepare { config with reapplyFilterOnRetry := reapply }).statements w =
        (first, after) := hpass
  have hkeeps := Script.keeps_failed hscan hpatterns (Connection.statements_of_pass hpass)
  have hfailures :=
    Config.retryFailures_of_keeps hkeeps reapply (config.connection c) script.label after
  change { config with reapplyFilterOnRetry := reapply }.retryFailures
    ({ config with reapplyFilterOnRetry := reapply }.connection c) script.label first after = _
      at hfailures
  simp only [run, hpass, hseen, hfailures]
  rfl

/--
Whether rounds exclude statements once more makes no difference to a scanned script that is not
rewritten. The same calls are made, the same files are left and the same comes of the run, and no
round hands an excluded text over in either case.
-/
theorem Script.run_whether_reapplied (script : Script) {config : Config}
    (hscan : config.splitMode = .scan) (hpatterns : config.stripPatterns = []) (reapply : Bool)
    (c : Connection σ) (w : World (Resilient (Recorded σ))) :
    script.run { config with reapplyFilterOnRetry := reapply } c.recorded w =
        script.run config c.recorded w ∧
      ∃ first later, (script.run config c.recorded w).1.rounds = first :: later ∧
        Recorded.Made w (script.run config c.recorded w).2 (Retry.handed (first :: later))
          (Retry.ran (first :: later)) ∧
        ∀ text ∈ Retry.handed later, isExcluded config.excludedPrefixes text = false := by
  have hran := script.ran_run config c.recorded w
  obtain ⟨first, later, hrounds, _⟩ := hran.exists_first
  have hmade := script.made_run config c w
  rw [hrounds] at hmade
  refine ⟨script.run_of_reapply hscan hpatterns reapply c.recorded w, first, later, hrounds, hmade,
    fun text hmem => ?_⟩
  obtain ⟨round, hround, s, hs, rfl⟩ := Retry.mem_handed_iff.1 hmem
  exact hran.isExcluded_later_of_scan hrounds hscan hpatterns hround hs

/-- A script of which a statement is excluded and another one is retried. -/
theorem Script.run_whether_reapplied_late_table :
    let config := Config.default
    let session := { Scripted.fresh with requires := [("INSERT", "CREATE")] }
    let w : World (Resilient (Recorded Scripted)) := ⟨⟨.start session, 0⟩, .empty, .ofSeconds 0⟩
    let script := Script.ofText "x" "DROP t;INSERT;CREATE"
    config.IsValid ∧ config.splitMode = .scan ∧ config.stripPatterns = [] ∧
      config.reapplyFilterOnRetry = false ∧
      (script.run config Scripted.connection.recorded w).1.rounds.length = 2 ∧
      script.run { config with reapplyFilterOnRetry := true } Scripted.connection.recorded w =
        script.run config Scripted.connection.recorded w ∧
      ∃ first later, (script.run config Scripted.connection.recorded w).1.rounds = first :: later ∧
        ∀ text ∈ Retry.handed later, isExcluded config.excludedPrefixes text = false := by
  intro config session w script
  have hlength : (script.run config Scripted.connection.recorded w).1.rounds.length = 2 := by
    decide +kernel
  obtain ⟨hsame, first, later, hrounds, -, hallowed⟩ :=
    @Script.run_whether_reapplied _ script config rfl rfl true Scripted.connection w
  exact ⟨by decide, rfl, rfl, rfl, hlength, hsame, first, later, hrounds, hallowed⟩

end SqlScript
