import Mathlib.Logic.Basic
import SqlScript.Config

/-!
# Settings that cannot work

A configuration is refused for the first of its faults, in the order of the checks
(`Config.fault?_eq_find?`), and it is valid if and only if it has none (`Config.isValid_iff`).
-/

namespace SqlScript.Config

variable {c : Config} {fault : ConfigFault}

/-- What each fault says of the settings. -/
def HasFault (c : Config) : ConfigFault → Prop
  | .noReconnectAttempts => c.reconnectAttempts = 0
  | .emptyExclusion => "" ∈ c.excludedPrefixes
  | .emptyPattern => "" ∈ c.stripPatterns
  | .noArchiveRoot => c.archiveFailures = true ∧ c.archiveRoot.isEmpty = true
  | .blankDelimiter =>
      ∃ character, c.splitMode = .delimiter character ∧ Text.isBlank character = true
  | .other _ => False

instance (c : Config) : DecidablePred c.HasFault
  | .noReconnectAttempts => inferInstanceAs (Decidable (c.reconnectAttempts = 0))
  | .emptyExclusion => inferInstanceAs (Decidable ("" ∈ c.excludedPrefixes))
  | .emptyPattern => inferInstanceAs (Decidable ("" ∈ c.stripPatterns))
  | .noArchiveRoot =>
      inferInstanceAs (Decidable (c.archiveFailures = true ∧ c.archiveRoot.isEmpty = true))
  | .blankDelimiter =>
      match h : c.splitMode with
      | .scan => isFalse (by simp [HasFault, h])
      | .delimiter character =>
          decidable_of_iff (Text.isBlank character = true) (by simp [HasFault, h])
  | .other _ => isFalse fun h => h

/-- The faults in the order in which they are looked for. -/
def checks : List ConfigFault :=
  [.noReconnectAttempts, .emptyExclusion, .emptyPattern, .noArchiveRoot, .blankDelimiter]

theorem mem_checks (h : c.HasFault fault) : fault ∈ checks := by
  cases fault with
  | other text => exact absurd h id
  | _ => decide

theorem any_isEmpty_iff {texts : List String} : texts.any String.isEmpty = true ↔ "" ∈ texts := by
  rw [List.any_eq_true]
  constructor
  · rintro ⟨text, hmem, hempty⟩
    rwa [String.isEmpty_iff.1 hempty] at hmem
  · exact fun hmem => ⟨"", hmem, rfl⟩

theorem find?_check (c : Config) (fault : ConfigFault) (later : List ConfigFault) :
    ((fault :: later).find? fun fault => decide (c.HasFault fault)) =
      if c.HasFault fault then some fault
      else later.find? fun fault => decide (c.HasFault fault) := by
  rw [List.find?_cons]
  by_cases h : c.HasFault fault <;> simp [h]

theorem fault?_eq_find? (c : Config) :
    c.fault? = checks.find? fun fault => decide (c.HasFault fault) := by
  simp only [checks, find?_check, List.find?_nil]
  refine if_congr .rfl rfl (if_congr any_isEmpty_iff rfl (if_congr any_isEmpty_iff rfl
    (if_congr .rfl rfl ?_)))
  cases h : c.splitMode <;> simp [HasFault, h]

/-- A configuration is valid if and only if it has no fault. -/
theorem isValid_iff : c.IsValid ↔ ∀ fault, ¬ c.HasFault fault := by
  rw [IsValid, fault?_eq_find?, List.find?_eq_none]
  constructor
  · intro h fault hfault
    exact h fault (mem_checks hfault) (decide_eq_true hfault)
  · intro h fault _ hfault
    exact h fault (of_decide_eq_true hfault)

theorem validated_eq_error_iff {e : ScriptError} :
    c.validated = .error e ↔ ∃ fault, c.fault? = some fault ∧ e = .invalidConfig fault := by
  unfold validated
  cases c.fault? <;> simp [eq_comm]

end SqlScript.Config
