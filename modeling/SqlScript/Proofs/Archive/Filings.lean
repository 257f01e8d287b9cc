import SqlScript.Proofs.Archive.Length
import SqlScript.Proofs.Archive.ReadBack

/-!
# Calls in a row

Calls of an archiver under one root, one after another, whatever comes of each (`Filings`). Every
directory that a call makes is a new entry of the root, so no two calls share one and none disturbs
what an earlier one left: `filings_apart`. What a call adds to the directories that are there is told
entry by entry (`Filing.Adds`), and numbers run out after 2³² equal calls.
-/

namespace SqlScript.Archive

open FileTree

/-- What an archiver is asked to do. -/
structure Request where
  mode : Mode
  label : String
  moment : Timestamp
  failed : List Statement

/-- A request and what came of it. -/
structure Filing extends Request where
  before : FileTree
  answer : Except ScriptError Batch
  after : FileTree

namespace Filing

def IsBy (root : Path) (filing : Filing) : Prop :=
  (⟨root, filing.mode⟩ : Archiver).MayArchive filing.failed filing.label filing.moment filing.before
    (filing.answer, filing.after)

/-- The directory that a call makes, also if it then fails on a file. -/
def directory? (root : Path) (filing : Filing) : Option Path :=
  (makeBatchDirectory filing.before root filing.label filing.moment).1.toOption

end Filing

/-- Calls under a root, each on the files that the one before left. -/
inductive Filings (root : Path) : FileTree → List Filing → FileTree → Prop
  | nil {t : FileTree} : Filings root t [] t
  | cons {filing : Filing} {later : List Filing} {last : FileTree} (made : filing.IsBy root)
      (rest : Filings root filing.after later last) :
      Filings root filing.before (filing :: later) last

/-- A request that is met by writing the files of the batch in turn. -/
def Request.file (root : Path) (request : Request) (before : FileTree) : Filing where
  toRequest := request
  before := before
  answer := ((⟨root, request.mode⟩ : Archiver).archive request.failed request.label request.moment
    before).1
  after := ((⟨root, request.mode⟩ : Archiver).archive request.failed request.label request.moment
    before).2

/-- Requests that are each met by writing files in turn, and the files that they leave. -/
def fileAll (root : Path) : FileTree → List Request → List Filing × FileTree
  | t, [] => ([], t)
  | t, request :: rest =>
      let filing := request.file root t
      let later := fileAll root filing.after rest
      (filing :: later.1, later.2)

variable {t last : FileTree} {root directory : Path} {filing : Filing} {filings : List Filing}

namespace Filing

theorem IsBy.filed (h : filing.IsBy root) :
    Filed filing.before root filing.failed filing.label filing.moment (filing.answer, filing.after) :=
  filed_of_mayArchive h

theorem directory?_eq_some_iff : filing.directory? root = some directory ↔
    (makeBatchDirectory filing.before root filing.label filing.moment).1 = .ok directory := by
  unfold directory?
  cases (makeBatchDirectory filing.before root filing.label filing.moment).1 with
  | error e => simp [Except.toOption]
  | ok found => simp [Except.toOption]

/-- What a call makes is a new entry of the root, and stays. -/
structure Makes (filing : Filing) (root : Path) (name : String) : Prop where
  isName : Path.IsName name
  directory? : filing.directory? root = some (root.join name)
  vacant : filing.before.node? (filing.before.placeOf root ++ [name]) = none
  made : filing.after.node? (filing.before.placeOf root ++ [name]) = some .directory

theorem IsBy.exists_makes (h : filing.IsBy root)
    (hdirectory : filing.directory? root = some directory) :
    ∃ name, directory = root.join name ∧ filing.Makes root name := by
  obtain ⟨made, name, hfounded, hkeeps⟩ :=
    h.filed.exists_founded (directory?_eq_some_iff.1 hdirectory)
  refine ⟨name, hfounded.directory_eq, hfounded.isName, ?_, hfounded.vacant, ?_⟩
  · rw [hdirectory, hfounded.directory_eq]
  · rw [← hfounded.placeOf_eq]
    exact hkeeps.directory _ hfounded.opens.2

/--
The entries that a call adds to the directories that are there: to the root, the directory of the
batch, and to others what was missing on the way to a root that was not there.
-/
inductive Adds (filing : Filing) (root : Path) : Location → String → Prop
  | batch {name : String} (made : filing.directory? root = some (root.join name)) :
      Adds filing root (filing.before.placeOf root) name
  | above {place : Location} {name : String} (missing : ¬ filing.before.Opens root)
      (new : NewDirectory filing.before root.lineage filing.after (place ++ [name])) :
      Adds filing root place name

theorem IsBy.mem_namesAt_iff (h : filing.IsBy root) (htree : filing.before.IsTree)
    {place : Location} (hplace : filing.before.node? place = some .directory) (name : String) :
    name ∈ filing.after.namesAt place ↔
      name ∈ filing.before.namesAt place ∨ filing.Adds root place name := by
  rw [FileTree.mem_namesAt_iff, FileTree.mem_namesAt_iff]
  constructor
  · intro hfound
    rw [or_iff_not_imp_left, Decidable.not_not]
    intro hvacant
    obtain ⟨own, hnew⟩ := h.filed.exists_new
    rcases hnew (place ++ [name]) with ⟨hmade, hown, hlies⟩ | hsame | ⟨hmissing, hnew⟩
    · rcases List.prefix_concat_iff.1 hlies with heq | hbeneath
      · obtain ⟨rfl, hname⟩ := List.append_inj' heq rfl
        obtain rfl : own = name := by simpa using hname
        exact .batch (directory?_eq_some_iff.2 hmade)
      · -- nothing is there beneath a place that is vacant
        obtain ⟨rest, rfl⟩ := hbeneath
        by_cases hrest : rest = []
        · rw [hrest, List.append_nil, hown] at hplace
          cases hplace
        · rw [htree.node?_beneath (by simp [hown]) hrest] at hplace
          cases hplace
    · exact absurd (hsame.trans hvacant) hfound
    · exact .above hmissing hnew
  · rintro (hbefore | hadds)
    · obtain ⟨node, hnode⟩ := Option.ne_none_iff_exists'.1 hbefore
      rw [(h.filed.keeps htree).node? hnode]
      simp
    · cases hadds with
      | batch made =>
          obtain ⟨own, hown, hmakes⟩ := h.exists_makes made
          rw [Path.join_inj hown, hmakes.made]
          simp
      | above missing new =>
          rw [new.made]
          simp

/-- A call adds one entry at most to a root that is there. -/
theorem IsBy.length_namesAt_le (h : filing.IsBy root) (htree : filing.before.IsTree)
    (hopens : filing.before.Opens root) :
    (filing.after.namesAt (filing.before.placeOf root)).length ≤
      (filing.before.namesAt (filing.before.placeOf root)).length + 1 := by
  obtain ⟨own, hnew⟩ := h.filed.exists_new
  have hsubset : filing.after.namesAt (filing.before.placeOf root) ⊆
      own :: filing.before.namesAt (filing.before.placeOf root) := by
    intro name hname
    rw [List.mem_cons, or_iff_not_imp_left]
    intro hne
    rw [FileTree.mem_namesAt_iff] at hname ⊢
    rcases hnew (filing.before.placeOf root ++ [name]) with ⟨-, -, hlies⟩ | hsame | ⟨hmissing, -⟩
    · rw [List.prefix_append_right_inj] at hlies
      exact absurd (by simpa [eq_comm] using hlies) hne
    · rwa [← hsame]
    · exact absurd hopens hmissing
  exact (((h.filed.isTree htree).nodup_namesAt _).subperm hsubset).length_le

end Filing

theorem Request.isBy_file (request : Request) (root : Path) (t : FileTree) :
    (request.file root t).IsBy root :=
  (⟨root, request.mode⟩ : Archiver).mayArchive_archive _ _ _ _

/-- A call that makes no directory writes nothing. -/
theorem Request.file_eq_of_error (request : Request) {e : ScriptError} {after : FileTree}
    (h : makeBatchDirectory t root request.label request.moment = (.error e, after)) :
    request.file root t = ⟨request, t, .error e, after⟩ := by
  simp only [file, Archiver.archive, h]

theorem filings_fileAll (root : Path) (t : FileTree) (requests : List Request) :
    Filings root t (fileAll root t requests).1 (fileAll root t requests).2 := by
  induction requests generalizing t with
  | nil => exact .nil
  | cons request rest ih => exact .cons (request.isBy_file root t) (ih _)

namespace Filings

theorem isBy (h : Filings root t filings last) :
    ∀ filing ∈ filings, filing.IsBy root := by
  induction h with
  | nil => exact fun _ hmem => absurd hmem List.not_mem_nil
  | cons made rest ih => exact List.forall_mem_cons.2 ⟨made, ih⟩

/-- Calls in a row lose nothing of what is there before each of them. -/
theorem keeps (h : Filings root t filings last) (htree : t.IsTree) :
    t.Keeps last ∧ ∀ filing ∈ filings, filing.before.IsTree ∧ t.Keeps filing.before ∧
      filing.before.Keeps filing.after ∧ filing.after.Keeps last := by
  induction h with
  | nil =>
      exact ⟨.refl _, fun _ hmem => absurd hmem List.not_mem_nil⟩
  | @cons filing later last made rest ih =>
      have hkeeps := made.filed.keeps htree
      obtain ⟨hlast, hlater⟩ := ih (made.filed.isTree htree)
      refine ⟨hkeeps.trans hlast, List.forall_mem_cons.2 ⟨⟨htree, .refl _, hkeeps, hlast⟩, ?_⟩⟩
      intro other hother
      obtain ⟨htree', hbefore, hrest⟩ := hlater other hother
      exact ⟨htree', hkeeps.trans hbefore, hrest⟩

/-- No two calls make the same directory. -/
theorem exists_names (h : Filings root t filings last) (htree : t.IsTree) :
    ∃ names : List String, filings.filterMap (Filing.directory? root) = names.map root.join ∧
      names.Nodup ∧ ∀ name ∈ names, t.node? (t.placeOf root ++ [name]) = none := by
  induction h with
  | nil => exact ⟨[], rfl, List.nodup_nil, fun _ hmem => absurd hmem List.not_mem_nil⟩
  | @cons filing later last made rest ih =>
      have hkeeps := made.filed.keeps htree
      obtain ⟨names, hnames, hnodup, hvacant⟩ := ih (made.filed.isTree htree)
      rw [placeOf_congr hkeeps.workDirectory] at hvacant
      have hbefore : ∀ name ∈ names,
          filing.before.node? (filing.before.placeOf root ++ [name]) = none :=
        fun name hmem => hkeeps.node?_eq_none (hvacant name hmem)
      cases hdirectory : filing.directory? root with
      | none => exact ⟨names, by rw [List.filterMap_cons_none hdirectory, hnames], hnodup, hbefore⟩
      | some directory =>
          obtain ⟨name, rfl, hmakes⟩ := made.exists_makes hdirectory
          refine ⟨name :: names, ?_, List.nodup_cons.2 ⟨fun hmem => ?_, hnodup⟩,
            List.forall_mem_cons.2 ⟨hmakes.vacant, hbefore⟩⟩
          · rw [List.filterMap_cons_some hdirectory, hnames, List.map_cons]
          · cases hmakes.made.symm.trans (hvacant name hmem)

theorem length_namesAt_le (h : Filings root t filings last) (htree : t.IsTree)
    (hopens : t.Opens root) {i : Nat} (hget : filings[i]? = some filing) :
    (filing.before.namesAt (t.placeOf root)).length ≤ (t.namesAt (t.placeOf root)).length + i := by
  induction h generalizing i with
  | nil => cases hget
  | @cons first later last made rest ih =>
      cases i with
      | zero =>
          cases hget
          exact Nat.le_refl _
      | succ i =>
          have hkeeps := made.filed.keeps htree
          have hgrowth := made.length_namesAt_le htree hopens
          have hlater := ih (made.filed.isTree htree)
            (hopens.of_keepsDirectories hkeeps.keepsDirectories) hget
          rw [placeOf_congr hkeeps.workDirectory] at hlater
          omega

end Filings

/-! ## Equal calls -/

/-- All numbers there are give names and paths that are short enough. -/
def HasRoom (root : Path) (label : String) (moment : Timestamp) : Prop :=
  ∀ number < UInt32.size, nameLength label moment number ≤ nameLimit ∧
    (numberedPath root label moment number).text.utf8ByteSize < pathLimit

/-- The entries of a root that accepts more are the first so many numbers of a name. -/
structure Numbered (t : FileTree) (root : Path) (label : String) (moment : Timestamp)
    (count : Nat) : Prop where
  accepts : t.Accepts root
  mem_iff : ∀ name, name ∈ t.namesAt (t.placeOf root) ↔
    ∃ number < count, name = numberedName (baseName label moment) number

variable {label : String} {moment : Timestamp} {count : Nat}

/-- The next call takes the next number, if there is one. -/
theorem Numbered.makeBatchDirectory_eq (h : Numbered t root label moment count) (hlabel : label ≠ "")
    (hroom : HasRoom root label moment) :
    makeBatchDirectory t root label moment =
      if count < UInt32.size then (.ok (numberedPath root label moment count),
        t.put (t.placeOf root ++ [numberedName (baseName label moment) count]) .directory)
      else (.error (.archive root .overflow), t) := by
  obtain ⟨number, htaken, hmade⟩ := makeBatchDirectory_of_accepts h.accepts hlabel moment
  have hle : number ≤ count := by
    by_contra hlt
    obtain ⟨other, hother, hname⟩ := (h.mem_iff _).1 (htaken count (by omega))
    exact absurd (numberedName_inj hname) (by omega)
  by_cases hnumber : UInt32.size ≤ number
  · rw [hmade, if_pos hnumber, if_neg (by omega)]
  · rw [if_neg hnumber, if_pos (hroom number (by omega))] at hmade
    obtain ⟨name, hfounded⟩ := exists_founded hmade
    obtain rfl := Path.join_inj hfounded.directory_eq
    -- what was made was not there, so that this is no number before the next one
    have hfree : ¬ number < count := fun hlt =>
      FileTree.mem_namesAt_iff.1 ((h.mem_iff _).2 ⟨number, hlt, rfl⟩) hfounded.vacant
    obtain rfl : number = count := by omega
    rw [hmade, if_pos (by omega)]

theorem Numbered.put (h : Numbered t root label moment count) :
    Numbered (t.put (t.placeOf root ++ [numberedName (baseName label moment) count]) .directory)
      root label moment (count + 1) := by
  have hvacant : t.node? (t.placeOf root ++ [numberedName (baseName label moment) count]) = none := by
    by_contra hfound
    obtain ⟨number, hlt, hname⟩ := (h.mem_iff _).1 (FileTree.mem_namesAt_iff.2 hfound)
    exact absurd (numberedName_inj hname) (by omega)
  have hkeeps := keeps_put hvacant .directory
  have hplace := placeOf_congr hkeeps.workDirectory root
  refine ⟨⟨h.accepts.opens.of_keepsDirectories hkeeps.keepsDirectories, fun name => ?_⟩,
    fun name => ?_⟩
  · rw [hkeeps.refuses, hplace]
    exact h.accepts.refuses name
  · rw [FileTree.mem_namesAt_iff, hplace, node?_put t (by simp)]
    by_cases hname : name = numberedName (baseName label moment) count
    · rw [if_pos (by rw [hname])]
      simp only [ne_eq, reduceCtorEq, not_false_eq_true, true_iff]
      exact ⟨count, Nat.lt_succ_self count, hname⟩
    · rw [if_neg (by simpa using hname), ← FileTree.mem_namesAt_iff, h.mem_iff]
      refine ⟨fun ⟨number, hlt, heq⟩ => ⟨number, by omega, heq⟩, fun ⟨number, hlt, heq⟩ => ?_⟩
      have hne : number ≠ count := fun hsame => hname (hsame ▸ heq)
      exact ⟨number, by omega, heq⟩

/-- Equal calls in a row take the numbers in turn, until one is left without. -/
theorem Numbered.exists_overflow (hlabel : label ≠ "") (hroom : HasRoom root label moment)
    {calls : Nat} (h : Numbered t root label moment count) (hcount : count + calls = UInt32.size)
    (mode : Mode) :
    ∃ filing ∈ (fileAll root t (List.replicate (calls + 1) ⟨mode, label, moment, []⟩)).1,
      filing.answer = .error (.archive root .overflow) := by
  induction calls generalizing t count with
  | zero =>
      have hnone := h.makeBatchDirectory_eq hlabel hroom
      rw [if_neg (by omega)] at hnone
      refine ⟨_, List.mem_cons_self, ?_⟩
      rw [Request.file_eq_of_error ⟨mode, label, moment, []⟩ hnone]
  | succ calls ih =>
      have hmade := h.makeBatchDirectory_eq hlabel hroom
      rw [if_pos (by omega)] at hmade
      have hafter : (Request.file root ⟨mode, label, moment, []⟩ t).after =
          t.put (t.placeOf root ++ [numberedName (baseName label moment) count]) .directory := by
        simp only [Request.file, Archiver.archive, hmade]
        rfl
      obtain ⟨filing, hmem, hanswer⟩ := ih h.put (by omega)
      refine ⟨filing, ?_, hanswer⟩
      rw [List.replicate_succ, fileAll]
      dsimp only
      rw [hafter]
      exact List.mem_cons_of_mem _ hmem

/--
The search for a free number comes to an end if the root, once it is there, has fewer entries than
there are numbers.
-/
def Filing.Ends (filing : Filing) (root : Path) : Prop :=
  ∀ below, filing.before.makeDirectories root = (.ok (), below) →
    (below.namesAt (below.placeOf root)).length < UInt32.size →
    ∃ number < UInt32.size, FirstFree below root filing.label filing.moment number ∧
      makeNumbered below root (baseName filing.label filing.moment) UInt32.size 0 =
        tryNumber below root filing.label filing.moment number

/--
Calls in a row make directories of their own: each is an entry that the root did not have, whatever
the labels and moments are. No call changes a file, or takes an entry from a directory, or adds one
but its own to the root and those that lead to a root that is missing. So in the end every batch still
stores the texts that were archived in it. A number is found as long as a call starts with fewer
entries than there are numbers; each call adds one at most.
-/
theorem filings_apart (htree : t.IsTree) (h : Filings root t filings last) :
    (∀ filing ∈ filings, filing.before.Keeps filing.after ∧
      ∀ place, filing.before.node? place = some .directory → ∀ name,
        name ∈ filing.after.namesAt place ↔
          name ∈ filing.before.namesAt place ∨ filing.Adds root place name) ∧
    (∀ filing ∈ filings, ∀ directory, filing.directory? root = some directory →
      ∃ name, directory = root.join name ∧ filing.Makes root name) ∧
    (∃ names : List String, filings.filterMap (Filing.directory? root) = names.map root.join ∧
      names.Nodup) ∧
    (t.RefusesSoundly → ∀ filing ∈ filings, filing.Ends root) ∧
    (t.Opens root → ∀ i filing, filings[i]? = some filing →
      (filing.before.namesAt (t.placeOf root)).length ≤ (t.namesAt (t.placeOf root)).length + i) ∧
    ∀ filing ∈ filings, ∀ batch, filing.answer = .ok batch →
      filing.directory? root = some batch.directory ∧
      batch.Stores last (filing.failed.map Statement.text) := by
  obtain ⟨-, hkeeps⟩ := h.keeps htree
  obtain ⟨names, hnames, hnodup, -⟩ := h.exists_names htree
  have hby : ∀ filing ∈ filings, filing.IsBy root := h.isBy
  refine ⟨fun filing hmem => ⟨(hkeeps filing hmem).2.2.1, fun place hplace name =>
      (hby filing hmem).mem_namesAt_iff (hkeeps filing hmem).1 hplace name⟩,
    fun filing hmem directory hdirectory => (hby filing hmem).exists_makes hdirectory,
    ⟨names, hnames, hnodup⟩, fun hrefuses filing hmem below hbelow hroom => ?_,
    fun hopens i filing hget => h.length_namesAt_le htree hopens hget,
    fun filing hmem batch hbatch => ?_⟩
  · have hsound := (hrefuses.of_keeps (hkeeps filing hmem).2.1).of_keeps
      (addsDirectories_of_makeDirectories hbelow).keeps
    obtain ⟨number, hle, hfirst⟩ :=
      exists_firstFree (hsound.within root) filing.label filing.moment
    have hnumber : number < UInt32.size := Nat.lt_of_le_of_lt hle hroom
    exact ⟨number, hnumber, hfirst, by rw [hfirst.makeNumbered_eq, if_pos hnumber]⟩
  · have hfiled := (hby filing hmem).filed
    rw [hbatch] at hfiled
    exact ⟨Filing.directory?_eq_some_iff.2 hfiled.directory_eq,
      (hfiled.hasTexts.of_keeps (hkeeps filing hmem).2.2.2).stores⟩

theorem filings_apart_alike :
    let t : FileTree := { FileTree.empty with refuses := fun place =>
      if place = ["work", "a", "x_y_1970-01-01_00-00-00-1", "0.sql"] then some (.other "full")
      else none }
    let requests : List Request := [⟨.parallel, "x/y", .ofSeconds 0, [⟨7, "A"⟩]⟩,
      ⟨.sequential, "x_y", .ofSeconds 0, [⟨0, "B"⟩]⟩, ⟨.parallel, "x:y", .ofSeconds 0, []⟩]
    t.IsTree ∧ t.RefusesSoundly ∧
      (fileAll ⟨"a"⟩ t requests).1.map (fun filing =>
          (filing.directory? ⟨"a"⟩, filing.answer.isOk)) =
        [(some ⟨"a/x_y_1970-01-01_00-00-00"⟩, true),
          (some ⟨"a/x_y_1970-01-01_00-00-00-1"⟩, false),
          (some ⟨"a/x_y_1970-01-01_00-00-00-2"⟩, true)] ∧
      ∀ filing ∈ (fileAll ⟨"a"⟩ t requests).1, ∀ batch, filing.answer = .ok batch →
        batch.read (fileAll ⟨"a"⟩ t requests).2 = .ok (filing.failed.map Statement.text) := by
  intro t requests
  have htree : t.IsTree := by decide
  have hrefuses : t.RefusesSoundly := by
    intro place
    dsimp only [t]
    split <;> simp
  have hlaw := filings_apart htree (filings_fileAll ⟨"a"⟩ t requests)
  refine ⟨htree, hrefuses, by decide +kernel, fun filing hmem batch hbatch => ?_⟩
  have hhides : ∀ place, (fileAll ⟨"a"⟩ t requests).2.hides place = none := fun place => by
    rw [((filings_fileAll ⟨"a"⟩ t requests).keeps htree).1.hides]
    rfl
  exact (hlaw.2.2.2.2.2 filing hmem batch hbatch).2.read fun entry _ => hhides _

/--
A call that fails may yet add an entry to the directory above the root. And of more equal calls than
there are numbers, which start in an empty root, one finds no number.
-/
theorem filings_apart_of_missing_root_and_overflow :
    (let request : Request :=
        ⟨.parallel, String.ofList (List.replicate 240 'a'), .ofSeconds 1709993107, [⟨0, "A"⟩]⟩
      let filing := request.file ⟨"fails"⟩ .empty
      filing.IsBy ⟨"fails"⟩ ∧ filing.answer.isOk = false ∧
        filing.before.node? ["work"] = some .directory ∧ filing.before.namesAt ["work"] = [] ∧
        filing.after.namesAt ["work"] = ["fails"]) ∧
    (let t : FileTree :=
        { FileTree.empty with nodes := [(["work", "a"], .directory), (["work"], .directory)] }
      let calls := fileAll ⟨"a"⟩ t
        (List.replicate (UInt32.size + 1) ⟨.sequential, "a", .ofSeconds 0, []⟩)
      t.IsTree ∧ t.namesAt (t.placeOf ⟨"a"⟩) = [] ∧ Filings ⟨"a"⟩ t calls.1 calls.2 ∧
        ∃ filing ∈ calls.1, filing.answer = .error (.archive ⟨"a"⟩ .overflow)) := by
  refine ⟨?_, ?_⟩
  · intro request filing
    let below : FileTree := FileTree.empty.put ["work", "fails"] .directory
    have hrooted : FileTree.empty.makeDirectories ⟨"fails"⟩ = (.ok (), below) := by rfl
    have haccepts : below.Accepts ⟨"fails"⟩ := ⟨⟨by decide +kernel, by decide +kernel⟩, fun _ => rfl⟩
    have hlong : nameLimit < request.label.length + 20 := by
      rw [String.length_ofList, List.length_replicate]
      decide
    obtain ⟨e, hnone⟩ := makeBatchDirectory_of_long_label hrooted haccepts hlong request.moment
    have hfiled : filing = ⟨request, .empty, .error e, below⟩ := request.file_eq_of_error hnone
    have hbefore : FileTree.empty.node? ["work"] = some .directory ∧
        FileTree.empty.namesAt ["work"] = [] := by decide
    have hafter : below.namesAt ["work"] = ["fails"] := by decide
    refine ⟨request.isBy_file _ _, ?_⟩
    rw [hfiled]
    exact ⟨rfl, hbefore.1, hbefore.2, hafter⟩
  · intro t calls
    have hroom : HasRoom ⟨"a"⟩ "a" (.ofSeconds 0) := by
      intro number hnumber
      have hdigits : (toString number).length ≤ 10 := (Nat.length_repr_le_iff (by decide)).2
        (Nat.lt_trans hnumber (by decide))
      have hmoment : (Timestamp.ofSeconds 0).text.length = 19 := by decide +kernel
      have hlength : nameLength "a" (.ofSeconds 0) number ≤ 32 := by
        have hlabel : "a".length = 1 := rfl
        unfold nameLength
        split_ifs <;> omega
      have hpath : (numberedPath ⟨"a"⟩ "a" (.ofSeconds 0) number).text =
          "a" ++ "/" ++ numberedName (baseName "a" (.ofSeconds 0)) number := rfl
      have hroot : ("a" ++ "/").utf8ByteSize = 2 := by decide
      refine ⟨Nat.le_trans hlength (by decide), ?_⟩
      rw [hpath, String.utf8ByteSize_append, hroot, utf8ByteSize_numberedName (by decide), pathLimit]
      omega
    have hnumbered : Numbered t ⟨"a"⟩ "a" (.ofSeconds 0) 0 := by
      refine ⟨⟨⟨by decide +kernel, by decide +kernel⟩, fun _ => rfl⟩, fun name => ?_⟩
      have hnone : t.namesAt (t.placeOf ⟨"a"⟩) = [] := by decide +kernel
      simp [hnone]
    exact ⟨by decide +kernel, by decide +kernel, filings_fileAll _ _ _,
      hnumbered.exists_overflow (by decide) hroom (Nat.zero_add _) .sequential⟩

end SqlScript.Archive
