import SqlScript.FileTree
import SqlScript.Proofs.Text.Pieces
import Mathlib.Tactic.SplitIfs

/-!
# Entries of a directory

The path of an entry leads into the directory and then to the entry's own name. So entries of
different names are at different places.
-/

namespace SqlScript

namespace Path

/-- A text that stands for an entry of its directory. -/
structure IsName (name : String) : Prop where
  ne_empty : name ≠ ""
  ne_dot : name ≠ "."
  ne_dotDot : name ≠ ".."
  slash : '/' ∉ name.toList

/-- What a path contributes to the paths of its entries: its pieces up to a slash at its end. -/
def lead (directory : Path) : List String :=
  if directory.isEmpty then []
  else if directory.text.toList.getLast? = some '/' then directory.pieces.dropLast
  else directory.pieces

theorem exists_text_join (directory : Path) (name : String) :
    ∃ slash, (directory.join name).text = directory.text ++ (slash ++ name) := by
  unfold join
  split
  · exact ⟨"", by simp⟩
  · exact ⟨"/", by simp [String.append_assoc]⟩

theorem text_eq_empty {path : Path} (h : path.isEmpty = true) : path.text = "" := by
  simpa [isEmpty] using h

theorem pieces_ofNames {name : String} (h : IsName name) :
    (Text.pieces '/' name.toList).map String.ofList = [name] := by
  rw [Text.pieces_of_notMem h.slash, List.map_singleton, String.ofList_toList]

/-- The pieces of a path that ends in a slash. -/
theorem pieces_of_getLast? {path : Path} (h : path.text.toList.getLast? = some '/') :
    ∃ before, path.text.toList = before ++ ['/'] ∧
      path.pieces = (Text.pieces '/' before).map String.ofList ++ [""] := by
  obtain ⟨before, hbefore⟩ := List.getLast?_eq_some_iff.1 h
  refine ⟨before, hbefore, ?_⟩
  rw [pieces, hbefore, Text.pieces_append, List.map_append]
  rfl

theorem pieces_join (directory : Path) {name : String} (h : IsName name) :
    (directory.join name).pieces = directory.lead ++ [name] := by
  by_cases hempty : directory.isEmpty = true
  · simp [join, lead, hempty, text_eq_empty hempty, pieces, pieces_ofNames h]
  by_cases hslash : directory.text.toList.getLast? = some '/'
  · obtain ⟨before, hbefore, hpieces⟩ := pieces_of_getLast? hslash
    rw [lead, if_neg hempty, if_pos hslash, hpieces, List.dropLast_concat, join,
      if_pos (.inr hslash), pieces, String.toList_append, hbefore, List.append_assoc,
      List.singleton_append, Text.pieces_append, List.map_append, pieces_ofNames h]
  · have hslashes : (directory.text ++ "/" ++ name).toList =
        directory.text.toList ++ '/' :: name.toList := by simp
    rw [lead, if_neg hempty, if_neg hslash, join, if_neg (by simp [hempty, hslash]), pieces,
      hslashes, Text.pieces_append, List.map_append, pieces_ofNames h]
    rfl

theorem pieces_eq_lead {directory : Path} (hempty : ¬ directory.isEmpty = true) :
    directory.pieces = directory.lead ∨ directory.pieces = directory.lead ++ [""] := by
  by_cases hslash : directory.text.toList.getLast? = some '/'
  · obtain ⟨before, hbefore, hpieces⟩ := pieces_of_getLast? hslash
    right
    rw [lead, if_neg hempty, if_pos hslash, hpieces, List.dropLast_concat]
  · left
    rw [lead, if_neg hempty, if_neg hslash]

theorem isAbsolute_join_of_isEmpty {directory : Path} {name : String}
    (hempty : directory.isEmpty = true) (h : IsName name) :
    (directory.join name).isAbsolute = false := by
  have htext : (directory.join name).text = name := by
    simp [join, hempty, text_eq_empty hempty]
  rw [isAbsolute, htext, beq_eq_false_iff_ne]
  intro hhead
  exact h.slash (List.mem_of_mem_head? hhead)

theorem isAbsolute_join {directory : Path} (hempty : ¬ directory.isEmpty = true) (name : String) :
    (directory.join name).isAbsolute = directory.isAbsolute := by
  obtain ⟨slash, htext⟩ := exists_text_join directory name
  have hne : directory.text.toList ≠ [] := by
    simpa [isEmpty] using hempty
  obtain ⟨c, rest, hcs⟩ := List.exists_cons_of_ne_nil hne
  rw [isAbsolute, isAbsolute, htext, String.toList_append, hcs, List.cons_append, List.head?_cons,
    List.head?_cons]

theorem isEmpty_join (directory : Path) {name : String} (h : IsName name) :
    ¬ (directory.join name).isEmpty = true := by
  intro hempty
  obtain ⟨slash, hjoin⟩ := exists_text_join directory name
  rw [text_eq_empty hempty] at hjoin
  have hlist := congrArg String.toList hjoin
  simp only [String.toList_append, String.toList_empty, List.nil_eq, List.append_eq_nil_iff,
    String.toList_eq_nil_iff] at hlist
  exact h.ne_empty hlist.2.2

theorem join_inj {directory : Path} {first second : String}
    (h : directory.join first = directory.join second) : first = second := by
  unfold join at h
  split at h
  · exact (String.append_right_inj _).1 (Path.mk.inj h)
  · exact (String.append_right_inj _).1 (Path.mk.inj h)

end Path

namespace FileTree

variable {t later : FileTree} {directory : Path} {name : String} {place dest : Location}

theorem walk_append (t : FileTree) (place : Location) (first second : List String) :
    t.walk place (first ++ second) =
      match t.walk place first with
      | .error e => .error e
      | .ok middle => t.walk middle second := by
  induction first generalizing place with
  | nil => rfl
  | cons piece rest ih =>
      simp only [List.cons_append, walk]
      cases t.step place piece with
      | error e => rfl
      | ok next => exact ih next

/-! ## Where a path leads -/

/-- The place that a piece names in a directory. -/
def enter (place : Location) (piece : String) : Location :=
  if piece = "" ∨ piece = "." then place
  else if piece = ".." then place.dropLast
  else place ++ [piece]

/-- The place that a path names if every directory on the way is there. -/
def placeOf (t : FileTree) (path : Path) : Location :=
  path.pieces.foldl enter (if path.isAbsolute then [] else t.workDirectory)

/-- Where the entries of a directory are: the empty path stands for the work directory. -/
def inside (t : FileTree) (directory : Path) : Except FileError Location :=
  if directory.isEmpty then .ok t.workDirectory else t.locate directory

theorem placeOf_congr (h : later.workDirectory = t.workDirectory) (path : Path) :
    later.placeOf path = t.placeOf path := by
  rw [placeOf, h, placeOf]

theorem enter_name (place : Location) (h : Path.IsName name) : enter place name = place ++ [name] := by
  rw [enter, if_neg (not_or.2 ⟨h.ne_empty, h.ne_dot⟩), if_neg h.ne_dotDot]

theorem enter_of_step {piece : String} (h : t.step place piece = .ok dest) :
    t.node? place = some .directory ∧ dest = enter place piece := by
  unfold step at h
  cases hnode : t.node? place with
  | none => simp [hnode] at h
  | some node =>
      cases node with
      | file content => simp [hnode] at h
      | directory =>
          simp only [hnode] at h
          refine ⟨rfl, ?_⟩
          unfold enter
          split_ifs at h ⊢ <;> simp_all

theorem step_name (hplace : t.node? place = some .directory) (h : Path.IsName name) :
    t.step place name =
      if nameLimit < name.utf8ByteSize then .error .nameTooLong else .ok (place ++ [name]) := by
  simp only [step, hplace, h.ne_empty, h.ne_dot, h.ne_dotDot, or_self, if_false]

theorem foldl_enter_of_walk {pieces : List String} (h : t.walk place pieces = .ok dest) :
    dest = pieces.foldl enter place := by
  induction pieces generalizing place with
  | nil =>
      cases h
      rfl
  | cons piece rest ih =>
      rw [walk] at h
      cases hstep : t.step place piece with
      | error e => simp [hstep] at h
      | ok next =>
          simp only [hstep] at h
          rw [List.foldl_cons, ← (enter_of_step hstep).2]
          exact ih h

theorem base_eq_ok {path : Path} {start : Location} (h : t.base path = .ok start) :
    start = if path.isAbsolute then [] else t.workDirectory := by
  unfold base at h
  split_ifs at h <;> simp_all

/-- A walk ends at the place that its path names, whatever the tree. -/
theorem eq_placeOf_of_locate {path : Path} (h : t.locate path = .ok place) :
    place = t.placeOf path := by
  unfold locate at h
  cases hbase : t.base path with
  | error e => simp [hbase] at h
  | ok start =>
      simp only [hbase] at h
      rw [placeOf, ← base_eq_ok hbase]
      exact foldl_enter_of_walk h

theorem placeOf_of_isEmpty (hempty : directory.isEmpty = true) :
    t.placeOf directory = t.workDirectory := by
  rw [placeOf, Path.pieces, Path.isAbsolute, Path.text_eq_empty hempty]
  rfl

theorem foldl_enter_lead (hempty : ¬ directory.isEmpty = true) (start : Location) :
    directory.lead.foldl enter start = directory.pieces.foldl enter start := by
  rcases Path.pieces_eq_lead hempty with hpieces | hpieces
  · rw [hpieces]
  · rw [hpieces, List.foldl_append]
    rfl

theorem placeOf_join (t : FileTree) (directory : Path) (h : Path.IsName name) :
    t.placeOf (directory.join name) = t.placeOf directory ++ [name] := by
  rw [placeOf, Path.pieces_join directory h, List.foldl_append, List.foldl_cons, List.foldl_nil,
    enter_name _ h]
  congr 1
  by_cases hempty : directory.isEmpty = true
  · rw [placeOf_of_isEmpty hempty, Path.isAbsolute_join_of_isEmpty hempty h, Path.lead,
      if_pos hempty]
    rfl
  · rw [foldl_enter_lead hempty, Path.isAbsolute_join hempty]
    rfl

/-! ## Entries -/

theorem base_join {start : Location} (hempty : ¬ directory.isEmpty = true)
    (h : t.base (directory.join name) = .ok start) : t.base directory = .ok start := by
  obtain ⟨slash, htext⟩ := Path.exists_text_join directory name
  have hstart := base_eq_ok h
  rw [Path.isAbsolute_join hempty] at hstart
  unfold base at h ⊢
  rw [htext] at h
  split_ifs at h with hnul hjoined hlimit
  all_goals
    have hnul' : ¬ directory.text.toList.contains '\x00' = true := by
      intro hcontains
      apply hnul
      rw [String.toList_append, List.contains_append, hcontains, Bool.true_or]
    have hlimit' : ¬ pathLimit ≤ directory.text.utf8ByteSize := by
      rw [String.utf8ByteSize_append] at hlimit
      omega
    rw [if_neg hnul', if_neg hempty, if_neg hlimit', hstart]

/-- An entry that a path leads to lies in a directory. -/
theorem inside_of_locate_join (h : Path.IsName name)
    (hlocate : t.locate (directory.join name) = .ok place) :
    t.inside directory = .ok (t.placeOf directory) ∧
      t.node? (t.placeOf directory) = some .directory ∧ place = t.placeOf directory ++ [name] := by
  have hplace := eq_placeOf_of_locate hlocate
  rw [placeOf_join t directory h] at hplace
  unfold locate at hlocate
  cases hbase : t.base (directory.join name) with
  | error e => simp [hbase] at hlocate
  | ok start =>
      simp only [hbase, Path.pieces_join directory h, walk_append] at hlocate
      cases hlead : t.walk start directory.lead with
      | error e => simp [hlead] at hlocate
      | ok middle =>
          simp only [hlead, walk] at hlocate
          cases hstep : t.step middle name with
          | error e => simp [hstep] at hlocate
          | ok next =>
              simp only [hstep, Except.ok.injEq] at hlocate
              obtain ⟨hmiddle, hnext⟩ := enter_of_step hstep
              rw [enter_name _ h, hlocate, hplace] at hnext
              have hsame := List.append_cancel_right hnext
              rw [← hsame] at hmiddle hlead
              refine ⟨?_, hmiddle, hplace⟩
              unfold inside
              split_ifs with hempty
              · rw [placeOf_of_isEmpty hempty]
              · rw [locate, base_join hempty hbase]
                rcases Path.pieces_eq_lead hempty with hpieces | hpieces
                · rw [hpieces]
                  exact hlead
                · simp only [hpieces, walk_append, hlead, walk, step, hmiddle, true_or, if_true]

/-- A directory is there for paths of its entries. -/
def Opens (t : FileTree) (directory : Path) : Prop :=
  t.inside directory = .ok (t.placeOf directory) ∧
    t.node? (t.placeOf directory) = some .directory

theorem Opens.locate (h : t.Opens directory) (hempty : ¬ directory.isEmpty = true) :
    t.locate directory = .ok (t.placeOf directory) := by
  have hinside := h.1
  rwa [inside, if_neg hempty] at hinside

theorem walk_lead {start : Location} (h : t.Opens directory) (hname : Path.IsName name)
    (hbase : t.base (directory.join name) = .ok start) :
    t.walk start directory.lead = .ok (t.placeOf directory) := by
  obtain ⟨hinside, hnode⟩ := h
  unfold inside at hinside
  split_ifs at hinside with hempty
  · have hstart := base_eq_ok hbase
    rw [Path.isAbsolute_join_of_isEmpty hempty hname] at hstart
    rw [Path.lead, if_pos hempty, walk, hstart]
    exact hinside
  · rw [locate, base_join hempty hbase] at hinside
    rcases Path.pieces_eq_lead hempty with hpieces | hpieces
    · rwa [hpieces] at hinside
    · simp only [hpieces, walk_append] at hinside
      cases hlead : t.walk start directory.lead with
      | error e => simp [hlead] at hinside
      | ok middle =>
          simp only [hlead] at hinside
          rw [foldl_enter_of_walk hinside]
          rfl

end FileTree

end SqlScript
