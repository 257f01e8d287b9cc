import SqlScript.Proofs.Files.Join

/-!
# Lineages

A path names the same place as its components do, one after another. So the paths above one without
a double dot in it name places above its own: `placeOf_prefix_of_mem_lineage`.
-/

namespace SqlScript

namespace Path

/-- What can stand between two slashes, unless it is empty. -/
structure IsPiece (piece : String) : Prop where
  ne_empty : piece ≠ ""
  slash : '/' ∉ piece.toList

theorem slash_notMem_of_mem_pieces {path : Path} {piece : String} (h : piece ∈ path.pieces) :
    '/' ∉ piece.toList := by
  obtain ⟨chars, hchars, rfl⟩ := List.mem_map.1 h
  rw [String.toList_ofList]
  exact Text.notMem_of_mem_pieces hchars

theorem of_mem_names {path : Path} {name : String} (h : name ∈ path.components.names) :
    name ≠ "" ∧ (name = "." ∨ name ∈ path.pieces) := by
  have hnamed : name ∈ path.pieces.filter (fun piece => piece ≠ "" ∧ piece ≠ ".") →
      name ≠ "" ∧ (name = "." ∨ name ∈ path.pieces) := by
    intro hmem
    obtain ⟨hmem, hname⟩ := List.mem_filter.1 hmem
    exact ⟨(of_decide_eq_true hname).1, .inr hmem⟩
  unfold components at h
  dsimp only at h
  split at h
  · rcases List.mem_cons.1 h with rfl | h
    · exact ⟨by decide, .inl rfl⟩
    · exact hnamed h
  · exact hnamed h

theorem isPiece_of_mem_names {path : Path} {name : String} (h : name ∈ path.components.names) :
    IsPiece name := by
  obtain ⟨hne, rfl | hmem⟩ := of_mem_names h
  · exact ⟨hne, by decide⟩
  · exact ⟨hne, slash_notMem_of_mem_pieces hmem⟩

theorem head?_pieces_of_isAbsolute {path : Path} (h : path.isAbsolute = true) :
    path.pieces.head? = some "" := by
  unfold isAbsolute at h
  obtain ⟨rest, hrest⟩ := List.head?_eq_some_iff.1 (eq_of_beq h)
  rw [pieces, hrest, Text.pieces_cons_self]
  rfl

theorem pieces_intercalate {names : List String} (hne : names ≠ [])
    (h : ∀ name ∈ names, '/' ∉ name.toList) :
    (Text.pieces '/' ("/".intercalate names).toList).map String.ofList = names := by
  have hpieces := Text.pieces_intercalate hne h
  rw [show '/'.toString = "/" from rfl] at hpieces
  rw [hpieces, List.map_map]
  simp [Function.comp_def]

end Path

namespace FileTree

open SqlScript.Path

variable {t : FileTree} {root path : Path}

theorem enter_of_blank (place : Location) {piece : String} (h : piece = "" ∨ piece = ".") :
    enter place piece = place := if_pos h

theorem foldl_enter_filter (pieces : List String) (place : Location) :
    (pieces.filter fun piece => piece ≠ "" ∧ piece ≠ ".").foldl enter place =
      pieces.foldl enter place := by
  induction pieces generalizing place with
  | nil => rfl
  | cons piece rest ih =>
      by_cases hblank : piece = "" ∨ piece = "."
      · rw [List.filter_cons_of_neg (by simpa [← not_or] using hblank), ih, List.foldl_cons,
          enter_of_blank place hblank]
      · rw [List.filter_cons_of_pos (by simpa [← not_or] using hblank), List.foldl_cons, ih,
          List.foldl_cons]

/-- Where the components of a path start. -/
def start (t : FileTree) (c : Components) : Location := if c.absolute then [] else t.workDirectory

theorem placeOf_eq_foldl (t : FileTree) (path : Path) :
    t.placeOf path = path.components.names.foldl enter (t.start path.components) := by
  unfold components
  dsimp only
  split
  · next hdot =>
    have habsolute : path.isAbsolute = false := by
      rw [← Bool.not_eq_true]
      intro h
      rw [head?_pieces_of_isAbsolute h] at hdot
      exact absurd hdot (by decide)
    rw [List.foldl_cons, enter_of_blank _ (.inr rfl), foldl_enter_filter, placeOf, habsolute]
    rfl
  · rw [foldl_enter_filter]
    rfl

theorem placeOf_toPath (t : FileTree) (c : Components) (h : ∀ name ∈ c.names, IsPiece name) :
    t.placeOf c.toPath = c.names.foldl enter (t.start c) := by
  obtain ⟨absolute, names⟩ := c
  have hslash : ∀ name ∈ names, '/' ∉ name.toList := fun name hmem => (h name hmem).slash
  cases absolute with
  | true =>
      have hlist : (Components.toPath ⟨true, names⟩).text.toList =
          '/' :: ("/".intercalate names).toList := by
        rw [Components.toPath, if_pos rfl, String.toList_append]
        rfl
      have habsolute : (Components.toPath ⟨true, names⟩).isAbsolute = true := by
        rw [isAbsolute, hlist]
        rfl
      rw [placeOf, if_pos habsolute, Path.pieces, hlist, Text.pieces_cons_self, List.map_cons,
        List.foldl_cons, enter_of_blank _ (.inl rfl)]
      cases names with
      | nil => rfl
      | cons name later =>
          rw [pieces_intercalate (List.cons_ne_nil _ _) hslash]
          rfl
  | false =>
      have htext : Components.toPath ⟨false, names⟩ = ⟨"/".intercalate names⟩ := by
        simp [Components.toPath]
      cases names with
      | nil => rfl
      | cons name later =>
          have hpieces : (Components.toPath ⟨false, name :: later⟩).pieces = name :: later := by
            rw [htext]
            exact pieces_intercalate (List.cons_ne_nil _ _) hslash
          have habsolute : ¬ (Components.toPath ⟨false, name :: later⟩).isAbsolute = true := by
            intro habsolute
            have hhead := head?_pieces_of_isAbsolute habsolute
            rw [hpieces, List.head?_cons, Option.some.injEq] at hhead
            exact (h name List.mem_cons_self).ne_empty hhead
          rw [placeOf, if_neg habsolute, hpieces]
          rfl

theorem prefix_foldl_enter {names : List String} (h : ".." ∉ names) (place : Location) :
    place <+: names.foldl enter place := by
  induction names generalizing place with
  | nil => exact List.prefix_refl place
  | cons name rest ih =>
      rw [List.mem_cons, not_or] at h
      have hname : place <+: enter place name := by
        unfold enter
        split_ifs with hblank hdots
        · exact List.prefix_refl place
        · exact absurd hdots.symm h.1
        · exact List.prefix_append place _
      exact hname.trans (ih h.2 (enter place name))

/-- Without a double dot in it a path names a place beneath those of the paths above it. -/
theorem placeOf_prefix_of_mem_lineage (hdots : ".." ∉ root.pieces) (h : path ∈ root.lineage) :
    t.placeOf path <+: t.placeOf root := by
  have hnames : ".." ∉ root.components.names := fun hmem =>
    hdots ((of_mem_names hmem).2.resolve_left (by decide))
  unfold lineage at h
  rcases List.mem_cons.1 h with rfl | h
  · exact List.prefix_refl _
  · obtain ⟨n, -, rfl⟩ := List.mem_map.1 h
    rw [placeOf_toPath t _ fun name hmem => isPiece_of_mem_names (List.mem_of_mem_take hmem),
      placeOf_eq_foldl t root, ← List.take_append_drop n root.components.names, List.foldl_append,
      List.take_append_drop]
    exact prefix_foldl_enter (fun hmem => hnames (List.mem_of_mem_drop hmem)) _

end FileTree

end SqlScript
