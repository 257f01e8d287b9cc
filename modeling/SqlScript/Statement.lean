/-!
# Statements

A statement is one executable unit of script text, together with the position it had in the
sequence it was cut from. Ordinals survive filtering, so a diagnostic can point back at the script.
-/

namespace SqlScript

structure Statement where
  ordinal : Nat
  text : String
deriving DecidableEq, Repr, Inhabited

/-- Statements with these texts, numbered from zero. -/
def Statement.number (texts : List String) : List Statement :=
  texts.zipIdx.map fun (text, ordinal) => ⟨ordinal, text⟩

/-- Numbers statements again from zero, keeping their order. -/
def Statement.renumber (statements : List Statement) : List Statement :=
  number (statements.map text)

@[simp] theorem Statement.map_text_number (texts : List String) :
    (number texts).map text = texts := by
  have h : (text ∘ fun (p : String × Nat) => (⟨p.2, p.1⟩ : Statement)) = Prod.fst := rfl
  simp [number, h, List.zipIdx_map_fst]

@[simp] theorem Statement.map_ordinal_number (texts : List String) :
    (number texts).map ordinal = List.range texts.length := by
  have h : (ordinal ∘ fun (p : String × Nat) => (⟨p.2, p.1⟩ : Statement)) = Prod.snd := rfl
  simp [number, h, List.zipIdx_map_snd, List.range_eq_range']

@[simp] theorem Statement.length_number (texts : List String) :
    (number texts).length = texts.length := by
  simp [number]

theorem Statement.getElem?_number (texts : List String) (n : Nat) :
    (number texts)[n]? = texts[n]?.map fun text => ⟨n, text⟩ := by
  simp [number, List.getElem?_zipIdx, Option.map_map, Function.comp_def]

theorem Statement.map_text_renumber (statements : List Statement) :
    (renumber statements).map text = statements.map text := by
  simp [renumber]

end SqlScript
