import SqlScript.Prepared
import SqlScript.Proofs.Delimited
import SqlScript.Proofs.Scan.Shape

/-!
# What becomes of the statements of a script

Every statement of a script is prepared, excluded or left blank by the removal of patterns, each on
its own account (`Config.prepared?`). So the counts of a preparation add up to the statements of the
script, and the ordinals that are left still point at them (`Script.prepare_accounts`).
-/

namespace SqlScript

variable {script : Script} {config : Config} {leads patterns : List String}
  {statements : List Statement} {s t : Statement}

/-! ## Division -/

theorem number_map_text_divide (mode : SplitMode) (text : String) :
    Statement.number ((mode.divide text).map Statement.text) = mode.divide text := by
  cases mode with
  | scan => exact number_map_text_split text
  | delimiter character => exact number_map_text_splitOn character text

theorem text_of_mem_divide {mode : SplitMode} {text : String} (h : t ∈ mode.divide text) :
    t.text ≠ "" ∧ Text.IsTrimmed t.text.toList := by
  cases mode with
  | scan => exact ⟨text_ne_empty_of_mem_split h, isTrimmed_of_mem_split h⟩
  | delimiter character =>
      have hclean := isClean_of_mem_splitOn h
      exact ⟨hclean.ne_empty, hclean.trimmed⟩

/-- A statement of a script stands at the place that its ordinal tells. -/
theorem getElem?_divide_ordinal {mode : SplitMode} {text : String} (h : t ∈ mode.divide text) :
    (mode.divide text)[t.ordinal]? = some t := by
  rw [← number_map_text_divide] at h ⊢
  obtain ⟨n, hn⟩ := List.getElem?_of_mem h
  have hordinal := hn
  rw [Statement.getElem?_number] at hordinal
  obtain ⟨text, _, rfl⟩ := Option.map_eq_some_iff.1 hordinal
  exact hn

theorem pairwise_ordinal_divide (mode : SplitMode) (text : String) :
    (mode.divide text).Pairwise fun s t => s.ordinal < t.ordinal := by
  rw [← List.pairwise_map, ← number_map_text_divide, Statement.map_ordinal_number]
  exact List.pairwise_lt_range

/-! ## Exclusion and removal -/

theorem length_sub_length_filter (p : Statement → Bool) (statements : List Statement) :
    statements.length - (statements.filter fun t => ! p t).length = statements.countP p := by
  have hall := statements.length_eq_length_filter_add p
  rw [List.countP_eq_length_filter]
  omega

theorem exclude_eq (leads : List String) (statements : List Statement) :
    exclude leads statements =
      (keepAllowed leads statements, statements.countP fun t => isExcluded leads t.text) := by
  rw [exclude, keepAllowed, length_sub_length_filter]

/-- A text without blanks at its ends is left as it is if there are no patterns. -/
theorem stripText_nil {text : String} (h : Text.IsTrimmed text.toList) :
    stripText [] text = text := by
  rw [stripText, List.map_nil, Text.removeAll, List.foldl_nil, Text.trim_eq_self h,
    String.ofList_toList]

/-- A statement without the patterns. -/
def Statement.stripped (patterns : List String) (t : Statement) : Statement :=
  { t with text := stripText patterns t.text }

theorem stripped_nil (h : Text.IsTrimmed t.text.toList) : Statement.stripped [] t = t := by
  rw [Statement.stripped, stripText_nil h]

/-- That no statement is touched if there are no patterns makes no difference after a division. -/
theorem strip_eq (h : ∀ t ∈ statements, t.text ≠ "" ∧ Text.IsTrimmed t.text.toList) :
    strip patterns statements =
      ((statements.map (Statement.stripped patterns)).filter fun t => ! t.text.isEmpty,
        statements.countP fun t => (stripText patterns t.text).isEmpty) := by
  by_cases hpatterns : patterns = []
  · have hsame : statements.map (Statement.stripped []) = statements :=
      (List.map_congr_left fun t hmem => stripped_nil (h t hmem).2).trans (List.map_id _)
    have hkept : statements.filter (fun t => ! t.text.isEmpty) = statements := by
      rw [List.filter_eq_self]
      intro t hmem
      simpa using (h t hmem).1
    have hblank : statements.countP (fun t => (stripText [] t.text).isEmpty) = 0 := by
      rw [List.countP_eq_zero]
      intro t hmem
      rw [stripText_nil (h t hmem).2]
      simpa using (h t hmem).1
    rw [hpatterns, hsame, hkept, hblank]
    rfl
  · have hlength := length_sub_length_filter (fun t => t.text.isEmpty)
      (statements.map (Statement.stripped patterns))
    rw [List.length_map, List.countP_map] at hlength
    rw [strip, if_neg (by simpa using hpatterns)]
    exact congrArg _ hlength

/-! ## Preparation -/

/-- What is left to execute of a statement, unless it is excluded or left blank. -/
def Config.prepared? (config : Config) (t : Statement) : Option Statement :=
  if isExcluded config.excludedPrefixes t.text then none
  else if (stripText config.stripPatterns t.text).isEmpty then none
  else some (t.stripped config.stripPatterns)

/-- A statement is excluded, left blank or prepared, and never two of these. -/
theorem prepared?_cases (config : Config) (t : Statement) :
    (isExcluded config.excludedPrefixes t.text = true ∧ config.prepared? t = none) ∨
      (isExcluded config.excludedPrefixes t.text = false ∧
        stripText config.stripPatterns t.text = "" ∧ config.prepared? t = none) ∨
      (isExcluded config.excludedPrefixes t.text = false ∧
        stripText config.stripPatterns t.text ≠ "" ∧
        config.prepared? t = some (t.stripped config.stripPatterns)) := by
  unfold Config.prepared?
  cases isExcluded config.excludedPrefixes t.text with
  | true => simp
  | false =>
      by_cases hblank : stripText config.stripPatterns t.text = ""
      · simp [hblank]
      · simp [hblank, String.isEmpty_iff]

theorem prepared?_eq_none_iff : config.prepared? t = none ↔
    isExcluded config.excludedPrefixes t.text = true ∨
      isExcluded config.excludedPrefixes t.text = false ∧
        stripText config.stripPatterns t.text = "" := by
  obtain ⟨hexcluded, h⟩ | ⟨hexcluded, hblank, h⟩ | ⟨hexcluded, hblank, h⟩ :=
    prepared?_cases config t
  · simp [hexcluded, h]
  · simp [hexcluded, hblank, h]
  · simp [hexcluded, hblank, h]

theorem prepared?_eq_some_iff : config.prepared? t = some s ↔
    isExcluded config.excludedPrefixes t.text = false ∧
      stripText config.stripPatterns t.text ≠ "" ∧ t.stripped config.stripPatterns = s := by
  obtain ⟨hexcluded, h⟩ | ⟨hexcluded, hblank, h⟩ | ⟨hexcluded, hblank, h⟩ :=
    prepared?_cases config t
  · simp [hexcluded, h]
  · simp [hexcluded, hblank, h]
  · simp [hexcluded, hblank, h]

theorem filterMap_prepared? (config : Config) (statements : List Statement) :
    statements.filterMap config.prepared? =
      ((keepAllowed config.excludedPrefixes statements).map
        (Statement.stripped config.stripPatterns)).filter fun t => ! t.text.isEmpty := by
  induction statements with
  | nil => rfl
  | cons t rest ih =>
      rw [List.filterMap_cons, ih]
      obtain ⟨hexcluded, h⟩ | ⟨hexcluded, hblank, h⟩ | ⟨hexcluded, hblank, h⟩ :=
        prepared?_cases config t
      · simp [keepAllowed, h, hexcluded]
      · simp [keepAllowed, Statement.stripped, h, hexcluded, hblank]
      · simp [keepAllowed, Statement.stripped, h, hexcluded, hblank]

theorem Script.prepare_eq (script : Script) (config : Config) :
    script.prepare config =
      { statements := (config.splitMode.divide script.text).filterMap config.prepared?
        split := (config.splitMode.divide script.text).length
        filtered := (config.splitMode.divide script.text).countP fun t =>
          isExcluded config.excludedPrefixes t.text
        stripped := (config.splitMode.divide script.text).countP fun t =>
          ! isExcluded config.excludedPrefixes t.text &&
            (stripText config.stripPatterns t.text).isEmpty } := by
  have hallowed : ∀ t ∈ keepAllowed config.excludedPrefixes (config.splitMode.divide script.text),
      t.text ≠ "" ∧ Text.IsTrimmed t.text.toList :=
    fun t hmem => text_of_mem_divide (List.mem_of_mem_filter hmem)
  have hblank : (keepAllowed config.excludedPrefixes (config.splitMode.divide script.text)).countP
        (fun t => (stripText config.stripPatterns t.text).isEmpty) =
      (config.splitMode.divide script.text).countP fun t =>
        ! isExcluded config.excludedPrefixes t.text &&
          (stripText config.stripPatterns t.text).isEmpty := by
    simp only [keepAllowed, List.countP_filter, Bool.and_comm]
  simp only [Script.prepare, exclude_eq, strip_eq hallowed, filterMap_prepared?, hblank]

theorem length_filterMap_prepared? (config : Config) (statements : List Statement) :
    (statements.filterMap config.prepared?).length +
        (statements.countP fun t => isExcluded config.excludedPrefixes t.text) +
        (statements.countP fun t => ! isExcluded config.excludedPrefixes t.text &&
          (stripText config.stripPatterns t.text).isEmpty) = statements.length := by
  induction statements with
  | nil => rfl
  | cons t rest ih =>
      obtain ⟨hexcluded, h⟩ | ⟨hexcluded, hblank, h⟩ | ⟨hexcluded, hblank, h⟩ :=
        prepared?_cases config t
      · simp [h, hexcluded]
        omega
      · simp [h, hexcluded, hblank]
        omega
      · simp [h, hexcluded, hblank]
        omega

theorem ordinal_eq_of_prepared? (h : config.prepared? t = some s) : s.ordinal = t.ordinal := by
  obtain ⟨_, _, rfl⟩ := prepared?_eq_some_iff.1 h
  rfl

theorem mem_prepare_iff :
    s ∈ (script.prepare config).statements ↔
      ∃ t ∈ config.splitMode.divide script.text, config.prepared? t = some s := by
  rw [Script.prepare_eq, List.mem_filterMap]

/-- What is left of the script is in the order of the script. -/
theorem pairwise_ordinal_prepare (script : Script) (config : Config) :
    ((script.prepare config).statements.map Statement.ordinal).Pairwise (· < ·) := by
  rw [List.pairwise_map, Script.prepare_eq]
  refine (pairwise_ordinal_divide config.splitMode script.text).filterMap config.prepared? ?_
  intro t u hlt s hs v hv
  rw [ordinal_eq_of_prepared? hs, ordinal_eq_of_prepared? hv]
  exact hlt

theorem getElem?_divide_of_mem_prepare (h : s ∈ (script.prepare config).statements) :
    s.text ≠ "" ∧ Text.IsTrimmed s.text.toList ∧
      ∃ t, (config.splitMode.divide script.text)[s.ordinal]? = some t ∧
        s.text = stripText config.stripPatterns t.text ∧
        (config.stripPatterns = [] → s.text = t.text) := by
  obtain ⟨t, ht, hprepared⟩ := mem_prepare_iff.1 h
  have hplace := getElem?_divide_ordinal ht
  rw [← ordinal_eq_of_prepared? hprepared] at hplace
  obtain ⟨_, hne, rfl⟩ := prepared?_eq_some_iff.1 hprepared
  refine ⟨hne, ?_, t, hplace, rfl, fun hpatterns => ?_⟩
  · rw [Statement.stripped, stripText, String.toList_ofList]
    exact Text.isTrimmed_trim _
  · rw [hpatterns, stripped_nil (text_of_mem_divide ht).2]

/-- A statement is missing if and only if nothing is left of it: ordinals are not used twice. -/
theorem ordinal_notMem_prepare_iff (h : t ∈ config.splitMode.divide script.text) :
    t.ordinal ∉ (script.prepare config).statements.map Statement.ordinal ↔
      config.prepared? t = none := by
  constructor
  · intro hmissing
    by_contra hne
    obtain ⟨s, hs⟩ := Option.ne_none_iff_exists'.1 hne
    rw [← ordinal_eq_of_prepared? hs] at hmissing
    exact hmissing (List.mem_map_of_mem (mem_prepare_iff.2 ⟨t, h, hs⟩))
  · intro hnone hmem
    obtain ⟨s, hs, hordinal⟩ := List.mem_map.1 hmem
    obtain ⟨u, hu, hprepared⟩ := mem_prepare_iff.1 hs
    have hplace := getElem?_divide_ordinal hu
    rw [← ordinal_eq_of_prepared? hprepared, hordinal, getElem?_divide_ordinal h] at hplace
    cases hplace
    rw [hnone] at hprepared
    cases hprepared

/--
Preparation accounts for every statement of a script. What is left stands at the places that the
ordinals tell, without the patterns. What is missing was excluded, or else it was left blank, and
there are as many of these as are counted.
-/
theorem Script.prepare_accounts (script : Script) (config : Config) :
    let all := config.splitMode.divide script.text
    let prepared := script.prepare config
    prepared.split = all.length ∧
      prepared.statements.length + prepared.filtered + prepared.stripped = all.length ∧
      (prepared.statements.map Statement.ordinal).Pairwise (· < ·) ∧
      (∀ s ∈ prepared.statements,
        s.text ≠ "" ∧ Text.IsTrimmed s.text.toList ∧
          ∃ t, all[s.ordinal]? = some t ∧ s.text = stripText config.stripPatterns t.text ∧
            (config.stripPatterns = [] → s.text = t.text)) ∧
      (∀ t ∈ all,
        t.ordinal ∉ prepared.statements.map Statement.ordinal ↔
          isExcluded config.excludedPrefixes t.text = true ∨
            isExcluded config.excludedPrefixes t.text = false ∧
              stripText config.stripPatterns t.text = "") ∧
      prepared.filtered = (all.countP fun t => isExcluded config.excludedPrefixes t.text) ∧
      prepared.stripped = all.countP fun t =>
        ! isExcluded config.excludedPrefixes t.text &&
          (stripText config.stripPatterns t.text).isEmpty := by
  intro all prepared
  have hprepared : prepared = _ := script.prepare_eq config
  refine ⟨?_, ?_, pairwise_ordinal_prepare script config, fun s => getElem?_divide_of_mem_prepare,
    fun t ht => ?_, ?_, ?_⟩
  · rw [hprepared]
  · rw [hprepared]
    exact length_filterMap_prepared? config all
  · rw [← prepared?_eq_none_iff]
    exact ordinal_notMem_prepare_iff ht
  · rw [hprepared]
  · rw [hprepared]

/-- One statement is excluded, one is left blank, and one starts like an excluded one afterwards. -/
theorem Script.prepare_accounts_of_pattern :
    let config := { Config.default with
      splitMode := .delimiter '$', stripPatterns := ["dbo.", " "] }
    let script := Script.ofText "x" "DROP t$ dbo. dbo.$SELECT 1$dbo.DROP t"
    let kept : Statement := ⟨3, "DROPt"⟩
    let blank : Statement := ⟨1, "dbo. dbo."⟩
    config.IsValid ∧
      script.prepare config = ⟨[⟨2, "SELECT1"⟩, kept], 4, 1, 1⟩ ∧
      (∃ t, (config.splitMode.divide script.text)[3]? = some t ∧
        kept.text = stripText config.stripPatterns t.text) ∧
      blank ∈ config.splitMode.divide script.text ∧
      (isExcluded config.excludedPrefixes blank.text = true ∨
        isExcluded config.excludedPrefixes blank.text = false ∧
          stripText config.stripPatterns blank.text = "") := by
  intro config script kept blank
  have hprepare : script.prepare config = ⟨[⟨2, "SELECT1"⟩, kept], 4, 1, 1⟩ := by decide +kernel
  have hblank : blank ∈ config.splitMode.divide script.text := by decide +kernel
  obtain ⟨_, _, _, hkept, hmissing, _, _⟩ := Script.prepare_accounts script config
  rw [hprepare] at hkept hmissing
  obtain ⟨_, _, t, ht, htext, _⟩ := hkept kept (by simp)
  exact ⟨by decide, hprepare, ⟨t, ht, htext⟩, hblank, (hmissing blank hblank).1 (by decide)⟩

end SqlScript
