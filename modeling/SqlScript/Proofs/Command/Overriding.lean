import Mathlib.Tactic.Common
import SqlScript.Command
import SqlScript.Proofs.Config.Faults

/-!
# Options over files

A file is checked before the options are applied to it and once more afterwards. So a command with
a faulty file fails, even where the options replace every setting that is at fault
(`Invocation.perform_of_starts`).
-/

namespace SqlScript.Command

variable {t : FileTree} {path : Option Path} {c : Config} {o : Options} {fault : ConfigFault}

/-- The configuration to which options are applied: what a file holds, or else the defaults. -/
def Starts (t : FileTree) (path : Option Path) (c : Config) : Prop :=
  match path with
  | none => c = .default
  | some path => ∃ text, t.readText path = .ok text ∧ Config.parse text = .ok c

/-- Whether an option puts another value in the place of the one at fault. -/
def Options.Replaces (o : Options) : ConfigFault → Prop
  | .noReconnectAttempts => o.reconnectAttempts.isSome
  | .emptyExclusion => o.noFilter = true ∨ o.exclude ≠ []
  | .emptyPattern => o.strip ≠ []
  | .noArchiveRoot => o.noArchive = true ∨ o.archiveRoot.isSome
  | .blankDelimiter => o.delimiter.isSome
  | .other _ => False

/-- Options leave a fault as it is unless they replace its setting. -/
theorem Options.hasFault_apply_iff (h : ¬ o.Replaces fault) :
    (o.apply c).HasFault fault ↔ c.HasFault fault := by
  cases fault <;> simp_all [Options.Replaces, Config.HasFault, Options.apply]

/-- Options that replace every setting that may be at fault. -/
def Options.sound : Options :=
  { reconnectAttempts := some 1, noFilter := true, noArchive := true, delimiter := some ';',
    strip := ["-"] }

theorem Options.isValid_apply_sound (c : Config) : (Options.sound.apply c).IsValid := by
  rw [Config.isValid_iff]
  intro fault
  cases fault with
  | blankDelimiter =>
      rintro ⟨_, hmode, hblank⟩
      cases hmode
      exact absurd hblank (by decide)
  | _ => simp [Config.HasFault, Options.apply, Options.sound]

theorem loadConfig_of_starts (h : Starts t path c) (o : Options) :
    loadConfig t path o = match c.fault? with
      | some fault => .error (.invalidConfig fault)
      | none => (o.apply c).validated := by
  cases path with
  | none =>
      obtain rfl : c = .default := h
      rfl
  | some path =>
      obtain ⟨text, htext, hparse⟩ := h
      simp only [loadConfig, Option.elim_some, Config.load, htext, hparse, Config.validated]
      cases c.fault? <;> rfl

theorem loadConfig_eq_ok_iff (h : Starts t path c) :
    loadConfig t path o = .ok (o.apply c) ↔ c.IsValid ∧ (o.apply c).IsValid := by
  rw [loadConfig_of_starts h]
  cases hfault : c.fault? with
  | some fault => simp [Config.IsValid, hfault]
  | none => simp [Config.IsValid, hfault, Config.validated_eq_ok_iff]

theorem loadConfig_eq_error_iff (h : Starts t path c) :
    loadConfig t path o = .error (.invalidConfig fault) ↔
      c.fault? = some fault ∨ c.IsValid ∧ (o.apply c).fault? = some fault := by
  rw [loadConfig_of_starts h]
  cases hfault : c.fault? with
  | some other => simp [Config.IsValid, hfault]
  | none => simp [Config.IsValid, hfault, Config.validated_eq_error_iff]

/--
A command whose file can be read goes on with the options applied to the file if the configuration
is valid both without them and with them, and it fails for the first fault otherwise. So options may
take the place of all that a file holds if and only if the file is valid: whatever they are, a
command with a faulty file fails and touches nothing, even where each fault is in a setting that
they replace. The defaults are valid.
-/
theorem Invocation.perform_of_starts (i : Invocation) (database : Option String) (now : Timestamp)
    (h : Starts t i.globals.config c) :
    let loaded := loadConfig t i.globals.config
    (∀ o, loaded o = .ok (o.apply c) ↔ c.IsValid ∧ (o.apply c).IsValid) ∧
    (∀ o fault, loaded o = .error (.invalidConfig fault) ↔
      c.fault? = some fault ∨ c.IsValid ∧ (o.apply c).fault? = some fault) ∧
    ((∀ o, (o.apply c).IsValid → loaded o = .ok (o.apply c)) ↔ c.IsValid) ∧
    (∀ o : Options, (o.apply c).IsValid → ∀ fault, c.HasFault fault → o.Replaces fault) ∧
    (∀ fault, c.fault? = some fault →
      i.perform database now t = (failed "" [] (.invalidConfig fault), t)) ∧
    (i.globals.config = none → c.IsValid) := by
  intro loaded
  refine ⟨fun o => loadConfig_eq_ok_iff h, fun o fault => loadConfig_eq_error_iff h,
    ⟨fun hall => ?_, fun hvalid o happlied => (loadConfig_eq_ok_iff h).2 ⟨hvalid, happlied⟩⟩,
    fun o happlied fault hfault => ?_, fun fault hfault => ?_, fun hnone => ?_⟩
  · -- some options put every faulty setting right, so it is the file alone that is refused
    have hsound := Options.isValid_apply_sound c
    exact ((loadConfig_eq_ok_iff h).1 (hall Options.sound hsound)).1
  · by_contra hkept
    exact Config.isValid_iff.1 happlied fault ((Options.hasFault_apply_iff hkept).2 hfault)
  · simp only [Invocation.perform, loadConfig_of_starts h, hfault]
  · rw [hnone] at h
    obtain rfl : c = .default := h
    decide

/-- A count of zero in a file is told as the fault of a command that was given another count. -/
theorem Invocation.perform_of_starts_zero :
    let text := "\x7b\"reconnect_attempts\": 0\x7d"
    let t : FileTree :=
      ⟨[(["work"], .directory), (["work", "s.sql"], .file "SELECT 1;".toUTF8),
        (["work", "c.json"], .file text.toUTF8)], ["work"], fun _ => none, fun _ => none⟩
    let i : Invocation :=
      ⟨{ config := some ⟨"c.json"⟩ }, .split, ⟨"s.sql"⟩, none, { reconnectAttempts := some 3 }⟩
    let c := { Config.default with reconnectAttempts := 0 }
    let error := "Error: Invalid configuration: reconnect_attempts must be at least 1"
    parse ["--config", "c.json", "split", "s.sql", "--reconnect-attempts", "3"] = .ok i ∧
      Starts t i.globals.config c ∧ (i.options.apply c).IsValid ∧
      i.perform none (.ofSeconds 0) t = (⟨1, "", [], some error⟩, t) ∧
      ¬ ∀ o : Options, (o.apply c).IsValid →
        loadConfig t i.globals.config o = .ok (o.apply c) := by
  intro text t i c error
  have hstarts : Starts t i.globals.config c := ⟨text, by decide +kernel, by decide +kernel⟩
  obtain ⟨-, -, hlaw, -, hfails, -⟩ := i.perform_of_starts none (.ofSeconds 0) hstarts
  refine ⟨by decide +kernel, hstarts, by decide, ?_, fun hall => ?_⟩
  · exact (hfails .noReconnectAttempts (by decide)).trans (congrArg (·, t) (by decide +kernel))
  · exact absurd (hlaw.1 hall) (by decide)

end SqlScript.Command
