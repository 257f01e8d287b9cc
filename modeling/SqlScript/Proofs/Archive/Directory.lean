import SqlScript.Proofs.Archive.Names
import SqlScript.Proofs.Files.Made
import Mathlib.Data.List.Perm.Subperm
import Mathlib.Data.Nat.Find

/-!
# The directory of a batch

A batch gets a directory of its own: the entry of the root that has the first free number
(`exists_firstFree`). It is new, and nothing else is new but what was missing on the way to the root
(`Founded`).
-/

namespace SqlScript

namespace FileTree

variable {t later : FileTree} {place : Location}

/-- Where nothing is, nothing is refused for being there already. -/
def RefusesSoundly (t : FileTree) : Prop := ∀ place, t.refuses place ≠ some .alreadyExists

theorem RefusesSoundly.of_keeps (h : t.RefusesSoundly) (hkeeps : t.Keeps later) :
    later.RefusesSoundly := by
  unfold RefusesSoundly
  rw [hkeeps.refuses]
  exact h

theorem step_ne_alreadyExists (t : FileTree) (place : Location) (piece : String) :
    t.step place piece ≠ .error .alreadyExists := by
  unfold step
  split
  · simp
  · simp
  · split_ifs <;> simp

theorem walk_ne_alreadyExists (t : FileTree) (place : Location) (pieces : List String) :
    t.walk place pieces ≠ .error .alreadyExists := by
  induction pieces generalizing place with
  | nil => simp [walk]
  | cons piece rest ih =>
      rw [walk]
      cases hstep : t.step place piece with
      | ok next => exact ih next
      | error e =>
          have hne := t.step_ne_alreadyExists place piece
          rw [hstep] at hne
          simpa using hne

theorem locate_ne_alreadyExists (t : FileTree) (path : Path) :
    t.locate path ≠ .error .alreadyExists := by
  unfold locate base
  split_ifs
  · simp
  · simp
  · simp
  · exact t.walk_ne_alreadyExists [] _
  · exact t.walk_ne_alreadyExists t.workDirectory _

/-- The same of the entries of one directory. -/
def RefusesSoundlyIn (t : FileTree) (root : Path) : Prop :=
  ∀ name, t.refuses (t.placeOf root ++ [name]) ≠ some .alreadyExists

theorem RefusesSoundly.within (h : t.RefusesSoundly) (root : Path) : t.RefusesSoundlyIn root :=
  fun name => h (t.placeOf root ++ [name])

/-- Only what is there already is in the way of a new entry for being there. -/
theorem RefusesSoundlyIn.mem_namesAt {root : Path} (h : t.RefusesSoundlyIn root) {name : String}
    (hname : Path.IsName name)
    (htaken : t.makeDirectory (root.join name) = .error .alreadyExists) :
    name ∈ t.namesAt (t.placeOf root) := by
  rw [makeDirectory_join t root hname] at htaken
  cases hlocate : t.locate (root.join name) with
  | error e =>
      simp only [hlocate, Except.error.injEq] at htaken
      exact absurd (htaken ▸ hlocate) (t.locate_ne_alreadyExists _)
  | ok place =>
      have hplace := (inside_of_locate_join hname hlocate).2.2
      rw [mem_namesAt_iff, ← hplace]
      intro hvacant
      simp only [hlocate, hvacant] at htaken
      cases hrefuses : t.refuses place with
      | none => simp [hrefuses] at htaken
      | some e =>
          simp only [hrefuses, Except.error.injEq] at htaken
          rw [htaken, hplace] at hrefuses
          exact h name hrefuses

end FileTree

namespace Archive

open FileTree

variable {t made below : FileTree} {root directory : Path} {label : String} {moment : Timestamp}

/-! ## The search for a free number -/

/-- The directory that is tried after this many taken ones. -/
def numberedPath (root : Path) (label : String) (moment : Timestamp) (number : Nat) : Path :=
  root.join (numberedName (baseName label moment) number)

/-- All smaller numbers are taken, and this one is not. -/
structure FirstFree (t : FileTree) (root : Path) (label : String) (moment : Timestamp)
    (number : Nat) : Prop where
  taken : ∀ smaller < number,
    t.makeDirectory (numberedPath root label moment smaller) = .error .alreadyExists
  free : t.makeDirectory (numberedPath root label moment number) ≠ .error .alreadyExists

/-- What comes of a search that ends at this number. -/
def tryNumber (t : FileTree) (root : Path) (label : String) (moment : Timestamp) (number : Nat) :
    Except ScriptError (Path × FileTree) :=
  match t.makeDirectory (numberedPath root label moment number) with
  | .ok made => .ok (numberedPath root label moment number, made)
  | .error e => .error (.archive (numberedPath root label moment number) e)

/-- Taken numbers are entries of the root, each one another. -/
theorem le_length_namesAt (h : t.RefusesSoundlyIn root) {number : Nat}
    (htaken : ∀ smaller < number,
      t.makeDirectory (numberedPath root label moment smaller) = .error .alreadyExists) :
    number ≤ (t.namesAt (t.placeOf root)).length := by
  let names := (List.range number).map (numberedName (baseName label moment))
  have hnodup : names.Nodup := List.nodup_range.map fun _ _ => numberedName_inj
  have hsubset : names ⊆ t.namesAt (t.placeOf root) := by
    intro name hmem
    obtain ⟨smaller, hsmaller, rfl⟩ := List.mem_map.1 hmem
    exact h.mem_namesAt (isName_numberedName label moment smaller)
      (htaken smaller (List.mem_range.1 hsmaller))
  simpa [names] using (hnodup.subperm hsubset).length_le

/-- The search ends at the first free number, if it comes so far. -/
theorem makeNumbered_eq {left more start : Nat}
    (htaken : ∀ number, start ≤ number → number < start + more →
      t.makeDirectory (numberedPath root label moment number) = .error .alreadyExists)
    (hfree : t.makeDirectory (numberedPath root label moment (start + more)) ≠
      .error .alreadyExists) :
    makeNumbered t root (baseName label moment) left start =
      if more < left then tryNumber t root label moment (start + more)
      else .error (.archive root .overflow) := by
  induction left generalizing more start with
  | zero => rfl
  | succ left ih =>
      cases more with
      | zero =>
          rw [Nat.add_zero] at hfree ⊢
          rw [if_pos (Nat.zero_lt_succ left), makeNumbered, tryNumber]
          change t.makeDirectory (root.join _) ≠ _ at hfree
          unfold numberedPath
          cases hmade : t.makeDirectory (root.join (numberedName (baseName label moment) start)) with
          | ok made => rfl
          | error e =>
              cases e
              case alreadyExists => exact absurd hmade hfree
              all_goals rfl
      | succ more =>
          have hfirst : t.makeDirectory (root.join (numberedName (baseName label moment) start)) =
              .error .alreadyExists := htaken start (Nat.le_refl start) (by omega)
          have hnext : start + (more + 1) = start + 1 + more := by omega
          rw [hnext] at hfree htaken ⊢
          rw [makeNumbered]
          simp only [hfirst, Nat.succ_lt_succ_iff]
          exact ih (fun number hle hlt => htaken number (by omega) hlt) hfree

/-- A number is free that is no greater than the number of entries. -/
theorem exists_firstFree (h : t.RefusesSoundlyIn root) (label : String) (moment : Timestamp) :
    ∃ number ≤ (t.namesAt (t.placeOf root)).length, FirstFree t root label moment number := by
  classical
  have hexists : ∃ number, t.makeDirectory (numberedPath root label moment number) ≠
      .error .alreadyExists := by
    by_contra hall
    simp only [ne_eq, not_exists, Decidable.not_not] at hall
    have htaken : ∀ smaller < (t.namesAt (t.placeOf root)).length + 1,
        t.makeDirectory (numberedPath root label moment smaller) = .error .alreadyExists :=
      fun smaller _ => hall smaller
    have hle := le_length_namesAt h htaken
    omega
  have htaken : ∀ smaller < Nat.find hexists,
      t.makeDirectory (numberedPath root label moment smaller) = .error .alreadyExists :=
    fun smaller hsmaller => Decidable.not_not.1 (Nat.find_min hexists hsmaller)
  exact ⟨Nat.find hexists, le_length_namesAt h htaken, htaken, Nat.find_spec hexists⟩

/-- A number has 32 bits, so that the first free one may lie beyond all of them. -/
theorem FirstFree.makeNumbered_eq {number : Nat} (h : FirstFree t root label moment number) :
    makeNumbered t root (baseName label moment) UInt32.size 0 =
      if number < UInt32.size then tryNumber t root label moment number
      else .error (.archive root .overflow) := by
  have hfree := h.free
  rw [← Nat.zero_add number] at hfree
  rw [Archive.makeNumbered_eq (fun smaller _ hlt => h.taken smaller (by omega)) hfree, Nat.zero_add]

/-! ## The directory that was made -/

theorem exists_of_makeNumbered {base : String} {fuel start : Nat}
    (h : makeNumbered t root base fuel start = .ok (directory, made)) :
    ∃ number, directory = root.join (numberedName base number) ∧
      t.makeDirectory directory = .ok made := by
  induction fuel generalizing start with
  | zero => cases h
  | succ fuel ih =>
      rw [makeNumbered] at h
      cases hmade : t.makeDirectory (root.join (numberedName base start)) with
      | ok after =>
          simp only [hmade, Except.ok.injEq, Prod.mk.injEq] at h
          obtain ⟨rfl, rfl⟩ := h
          exact ⟨start, rfl, hmade⟩
      | error e =>
          simp only [hmade] at h
          split at h
          · next heq => cases heq
          · exact ih h
          · cases h

/-- What may come of making a directory for a batch, of which a root that is missing is made first. -/
inductive Founding (t : FileTree) (root : Path) (label : String) (moment : Timestamp) :
    Except ScriptError Path × FileTree → Prop
  | rootless {cause : FileError} {below : FileTree}
      (fault : t.makeDirectories root = (.error cause, below)) :
      Founding t root label moment (.error (.archive root cause), below)
  | unnumbered {below : FileTree} {e : ScriptError}
      (rooted : t.makeDirectories root = (.ok (), below))
      (fault : makeNumbered below root (baseName label moment) UInt32.size 0 =
        .error e) :
      Founding t root label moment (.error e, below)
  | numbered {below made : FileTree} {directory : Path}
      (rooted : t.makeDirectories root = (.ok (), below))
      (found : makeNumbered below root (baseName label moment) UInt32.size 0 =
        .ok (directory, made)) :
      Founding t root label moment (.ok directory, made)

theorem founding_of_makeBatchDirectory {result : Except ScriptError Path × FileTree}
    (h : makeBatchDirectory t root label moment = result) :
    Founding t root label moment result := by
  subst h
  unfold makeBatchDirectory
  rcases hroot : t.makeDirectories root with ⟨answer, below⟩
  cases answer with
  | error cause => exact .rootless hroot
  | ok _ =>
      dsimp only
      cases hnumbered : makeNumbered below root (baseName label moment) UInt32.size 0 with
      | error e => exact .unnumbered hroot hnumbered
      | ok found => exact .numbered hroot hnumbered

/--
A new entry of the root is the directory of a batch. The rest of the tree is as it was, except that
directories were made on the way to a root that was not there.
-/
structure Founded (t : FileTree) (root directory : Path) (made : FileTree) (name : String) :
    Prop where
  isName : Path.IsName name
  directory_eq : directory = root.join name
  opensRoot : made.Opens root
  opens : made.Opens directory
  vacant : t.node? (t.placeOf root ++ [name]) = none
  keeps : t.Keeps made
  isTree : t.IsTree → made.IsTree
  beneath : t.IsTree → ∀ {rest : Location}, rest ≠ [] →
    made.node? (t.placeOf root ++ [name] ++ rest) = none
  new : ∀ place, place ≠ t.placeOf root ++ [name] → made.node? place = t.node? place ∨
    (¬ t.Opens root ∧ NewDirectory t root.lineage made place)

theorem Founded.placeOf_eq {name : String} (h : Founded t root directory made name) :
    made.placeOf directory = t.placeOf root ++ [name] := by
  rw [placeOf_congr h.keeps.workDirectory, h.directory_eq, placeOf_join t root h.isName]

theorem addsDirectories_of_makeDirectories {answer : Except FileError Unit}
    (h : t.makeDirectories root = (answer, below)) : AddsDirectories t root.lineage below := by
  have hadds := addsDirectories_makeDirectories t root
  rwa [h] at hadds

/-- What is new after directories were made on the way to a root is new only if it was not there. -/
theorem new_of_makeDirectories {answer : Except FileError Unit}
    (h : t.makeDirectories root = (answer, below)) (place : Location) :
    below.node? place = t.node? place ∨
      (¬ t.Opens root ∧ NewDirectory t root.lineage below place) := by
  by_cases hopens : t.Opens root
  · rw [makeDirectories_of_opens hopens] at h
    cases h
    exact .inl rfl
  · exact ((addsDirectories_of_makeDirectories h).new place).imp_right fun hnew => ⟨hopens, hnew⟩

/-- An entry that was made in a root, whether or not that was there, is the directory of a batch. -/
theorem founded_of_makeDirectory {name : String} (hrooted : t.makeDirectories root = (.ok (), below))
    (hname : Path.IsName name) (hmade : below.makeDirectory (root.join name) = .ok made) :
    Founded t root (root.join name) made name := by
  have hadds := addsDirectories_of_makeDirectories hrooted
  obtain ⟨place, hplace⟩ := exists_madeAt hmade
  have hkeeps := hadds.keeps.trans hplace.keeps
  obtain ⟨hinside, hroot, heq⟩ := inside_of_locate_join hname hplace.located
  rw [placeOf_congr hkeeps.workDirectory] at heq
  subst heq
  refine ⟨hname, rfl, ⟨hinside, hroot⟩, ⟨?_, ?_⟩, hadds.keeps.node?_eq_none hplace.vacant, hkeeps,
    fun htree => hplace.isTree (hadds.isTree htree), fun htree {rest} hrest => ?_,
    fun other hother => ?_⟩
  · have hne := Path.isEmpty_join root hname
    rw [inside, if_neg hne, hplace.located, ← eq_placeOf_of_locate hplace.located]
  · rw [← eq_placeOf_of_locate hplace.located, hplace.node?, if_pos rfl]
  · rw [hplace.node?, if_neg (by simpa using hrest)]
    exact (hadds.isTree htree).node?_beneath (by simp [hplace.vacant]) hrest
  · have hnode := hplace.node? other
    rw [if_neg hother] at hnode
    refine (new_of_makeDirectories hrooted other).imp hnode.trans ?_
    rintro ⟨hopens, hvacant, hbelow, hnamed⟩
    exact ⟨hopens, hvacant, hnode.trans hbelow, hnamed⟩

theorem exists_founded (h : makeBatchDirectory t root label moment = (.ok directory, made)) :
    ∃ name, Founded t root directory made name := by
  cases founding_of_makeBatchDirectory h with
  | numbered rooted found =>
      obtain ⟨number, rfl, hmade⟩ := exists_of_makeNumbered found
      exact ⟨_, founded_of_makeDirectory rooted (isName_numberedName label moment number) hmade⟩

/-- A directory that could not be made leaves what was there as it was. -/
theorem addsDirectories_of_makeBatchDirectory_error {e : ScriptError}
    (h : makeBatchDirectory t root label moment = (.error e, made)) :
    AddsDirectories t root.lineage made := by
  cases founding_of_makeBatchDirectory h with
  | rootless fault => exact addsDirectories_of_makeDirectories fault
  | unnumbered rooted => exact addsDirectories_of_makeDirectories rooted

theorem eq_of_makeBatchDirectory_error (hopens : t.Opens root) {e : ScriptError}
    (h : makeBatchDirectory t root label moment = (.error e, made)) : made = t := by
  cases founding_of_makeBatchDirectory h with
  | rootless fault => cases (makeDirectories_of_opens hopens).symm.trans fault
  | unnumbered rooted =>
      cases (makeDirectories_of_opens hopens).symm.trans rooted
      rfl

/-- What could not be made when there is no directory for a batch. -/
inductive Unmade (t : FileTree) (root : Path) (label : String) (moment : Timestamp) :
    ScriptError → Prop
  | root {below : FileTree} {cause : FileError}
      (fault : t.makeDirectories root = (.error cause, below)) :
      Unmade t root label moment (.archive root cause)
  | directory {below : FileTree} {number : Nat} {cause : FileError}
      (founding : t.makeDirectories root = (.ok (), below))
      (first : FirstFree below root label moment number)
      (fault : below.makeDirectory (numberedPath root label moment number) = .error cause) :
      Unmade t root label moment (.archive (numberedPath root label moment number) cause)
  | numbers {below : FileTree} (founding : t.makeDirectories root = (.ok (), below))
      (taken : ∀ number < UInt32.size,
        below.makeDirectory (numberedPath root label moment number) = .error .alreadyExists) :
      Unmade t root label moment (.archive root .overflow)

theorem unmade_of_makeBatchDirectory (hrefuses : t.RefusesSoundly) {e : ScriptError}
    (h : makeBatchDirectory t root label moment = (.error e, made)) :
    Unmade t root label moment e := by
  cases founding_of_makeBatchDirectory h with
  | rootless fault => exact .root fault
  | unnumbered rooted fault =>
      have hsound := hrefuses.of_keeps (addsDirectories_of_makeDirectories rooted).keeps
      obtain ⟨number, -, hfirst⟩ := exists_firstFree (hsound.within root) label moment
      rw [hfirst.makeNumbered_eq] at fault
      by_cases hnumber : number < UInt32.size
      · rw [if_pos hnumber, tryNumber] at fault
        cases hmade : made.makeDirectory (numberedPath root label moment number) with
        | ok after => simp [hmade] at fault
        | error cause =>
            simp only [hmade, Except.error.injEq] at fault
            rw [← fault]
            exact .directory rooted hfirst hmade
      · rw [if_neg hnumber] at fault
        cases fault
        exact .numbers rooted fun smaller hsmaller => hfirst.taken smaller (by omega)

end Archive

end SqlScript
