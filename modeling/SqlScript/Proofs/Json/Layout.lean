import Mathlib.Data.List.Forall2
import SqlScript.Json
import SqlScript.Json.Reader

/-!
# Texts of JSON values

A value has many texts, which differ in the blanks between their marks only (`Spells`). The text on
one line and the text with one item a line are two of them (`spells_compact`, `spells_pretty`).
-/

namespace SqlScript.Json

def IsBlanks (text : List Char) : Prop := ∀ c ∈ text, isBlank c = true

/-- What stands before an item of a container: blanks, and a comma if it is not the first. -/
inductive Lead : Bool → List Char → Prop
  | first {blanks : List Char} (hblanks : IsBlanks blanks) : Lead true blanks
  | next {before after : List Char} (hbefore : IsBlanks before) (hafter : IsBlanks after) :
      Lead false (before ++ ',' :: after)

/-- The texts of items, laid out up to the end of their container. -/
inductive Laid (closing : Char) : Bool → List (List Char) → List Char → Prop
  | close {first : Bool} {blanks : List Char} (hblanks : IsBlanks blanks) :
      Laid closing first [] (blanks ++ [closing])
  | item {first : Bool} {lead item text : List Char} {items : List (List Char)}
      (hlead : Lead first lead) (hlaid : Laid closing false items text) :
      Laid closing first (item :: items) (lead ++ (item ++ text))

mutual

/-- A text is one of a value. -/
inductive Spells : Json → List Char → Prop
  | null : Spells .null ['n', 'u', 'l', 'l']
  | bool (value : Bool) : Spells (.bool value) (if value then "true" else "false").toList
  | number (literal : String) : Spells (.number literal) literal.toList
  | string (value : String) : Spells (.string value) (quote value).toList
  | array {items : List Json} {texts : List (List Char)} {text : List Char}
      (hitems : List.Forall₂ Spells items texts) (hlaid : Laid ']' true texts text) :
      Spells (.array items) ('[' :: text)
  | object {members : List (String × Json)} {texts : List (List Char)} {text : List Char}
      (hmembers : List.Forall₂ SpellsMember members texts) (hlaid : Laid '\x7d' true texts text) :
      Spells (.object members) ('\x7b' :: text)

/-- A text is one of a member: its key and its value. -/
inductive SpellsMember : String × Json → List Char → Prop
  | mk (key : String) {value : Json} {before after text : List Char} (hbefore : IsBlanks before)
      (hafter : IsBlanks after) (hvalue : Spells value text) :
      SpellsMember (key, value) ((quote key).toList ++ (before ++ ':' :: (after ++ text)))

end

theorem eq_of_spells_bool {value : Bool} {text : List Char} (h : Spells (.bool value) text) :
    text = (if value then "true" else "false").toList := by
  cases h
  rfl

theorem eq_of_spells_number {literal : String} {text : List Char}
    (h : Spells (.number literal) text) : text = literal.toList := by
  cases h
  rfl

theorem eq_of_spells_string {value : String} {text : List Char}
    (h : Spells (.string value) text) : text = (quote value).toList := by
  cases h
  rfl

theorem exists_of_spells_object {members : List (String × Json)} {text : List Char}
    (h : Spells (.object members) text) :
    ∃ texts tail, text = '\x7b' :: tail ∧ List.Forall₂ SpellsMember members texts ∧
      Laid '\x7d' true texts tail := by
  cases h with
  | object hmembers hlaid => exact ⟨_, _, rfl, hmembers, hlaid⟩

/-! ## Blanks -/

theorem isBlanks_nil : IsBlanks [] := List.forall_mem_nil _

theorem isBlanks_singleton {c : Char} (h : isBlank c = true) : IsBlanks [c] :=
  List.forall_mem_singleton.2 h

theorem IsBlanks.append {first second : List Char} (h : IsBlanks first) (h' : IsBlanks second) :
    IsBlanks (first ++ second) :=
  List.forall_mem_append.2 ⟨h, h'⟩

theorem isBlanks_indentation (depth : Nat) : IsBlanks (indentation depth).toList := by
  intro c hc
  rw [indentation, String.toList_ofList] at hc
  rw [List.eq_of_mem_replicate hc]
  rfl

theorem Lead.append {first : Bool} {lead blanks : List Char} (h : Lead first lead)
    (hblanks : IsBlanks blanks) : Lead first (lead ++ blanks) := by
  cases h with
  | first hlead => exact .first (hlead.append hblanks)
  | next hbefore hafter =>
      rw [List.append_assoc, List.cons_append]
      exact .next hbefore (hafter.append hblanks)

/-! ## Joined items -/

/-- Joined items are laid out, each with an indentation before it. -/
theorem laid_intercalate (closing : Char) {before indent after : List Char}
    (hbefore : IsBlanks before) (hindent : IsBlanks indent) (hafter : IsBlanks after)
    {first : Bool} {lead : List Char} (hlead : Lead first lead)
    {items : List (List Char)} (hne : items ≠ []) :
    Laid closing first items (lead ++
      ((',' :: before).intercalate (items.map (indent ++ ·)) ++ (after ++ [closing]))) := by
  induction items generalizing first lead with
  | nil => exact absurd rfl hne
  | cons item items ih =>
      have hlead := hlead.append hindent
      cases items with
      | nil =>
          have hlaid : Laid closing false [] (after ++ [closing]) := .close hafter
          have hitem : Laid closing first [item] _ := .item hlead hlaid
          simpa using hitem
      | cons next later =>
          have hcomma : Lead false (',' :: before) := .next isBlanks_nil hbefore
          have hlaid := ih hcomma (List.cons_ne_nil _ _)
          have hitem : Laid closing first (item :: next :: later) _ := .item hlead hlaid
          simpa [List.intercalate_cons_cons] using hitem

theorem laid_compact (closing : Char) (texts : List String) :
    Laid closing true (texts.map String.toList)
      ((",".intercalate texts).toList ++ [closing]) := by
  cases texts with
  | nil => exact .close isBlanks_nil
  | cons text later =>
      have hlead : Lead true [] := .first isBlanks_nil
      have hlaid := laid_intercalate closing isBlanks_nil isBlanks_nil isBlanks_nil
        hlead (List.cons_ne_nil text.toList (later.map String.toList))
      simpa [String.toList_intercalate, Function.comp_def] using hlaid

/-- The text of a block behind its opening bracket is laid out. -/
theorem exists_laid_block (depth : Nat) (opening : String) (closing : Char) (lines : List String) :
    ∃ text, (block depth opening closing.toString lines).toList = opening.toList ++ text ∧
      Laid closing true (lines.map String.toList) text := by
  cases lines with
  | nil => exact ⟨[closing], by simp [block], .close isBlanks_nil⟩
  | cons line later =>
      have hnewline : IsBlanks ['\n'] := isBlanks_singleton rfl
      have hlaid := laid_intercalate closing hnewline
        (isBlanks_indentation (depth + 1)) (hnewline.append (isBlanks_indentation depth))
        (.first hnewline) (List.cons_ne_nil line.toList (later.map String.toList))
      refine ⟨_, ?_, hlaid⟩
      simp [block, String.toList_intercalate, -String.intercalate_cons_append, Function.comp_def]

/-! ## The two texts -/

mutual

theorem spells_compact : ∀ value : Json, Spells value (compact value).toList
  | .null => .null
  | .bool value => .bool value
  | .number literal => .number literal
  | .string value => .string value
  | .array items => by
      have htext := Spells.array (spells_compactItems items) (laid_compact ']' (compactItems items))
      simpa [compact] using htext
  | .object members => by
      have htext := Spells.object (spells_compactMembers members)
        (laid_compact '\x7d' (compactMembers members))
      simpa [compact] using htext

theorem spells_compactItems :
    ∀ items : List Json, List.Forall₂ Spells items ((compactItems items).map String.toList)
  | [] => .nil
  | item :: rest => .cons (spells_compact item) (spells_compactItems rest)

theorem spells_compactMembers : ∀ members : List (String × Json),
    List.Forall₂ SpellsMember members ((compactMembers members).map String.toList)
  | [] => .nil
  | (key, value) :: rest => by
      have htext := SpellsMember.mk key isBlanks_nil isBlanks_nil (spells_compact value)
      refine .cons ?_ (spells_compactMembers rest)
      simpa using htext

end

mutual

theorem spells_prettyAt : ∀ (depth : Nat) (value : Json), Spells value (prettyAt depth value).toList
  | _, .null => by
      rw [prettyAt]
      exact .null
  | _, .bool value => by
      rw [prettyAt]
      exact .bool value
  | _, .number literal => by
      rw [prettyAt]
      exact .number literal
  | _, .string value => by
      rw [prettyAt]
      exact .string value
  | depth, .array items => by
      obtain ⟨text, htext, hlaid⟩ :=
        exists_laid_block depth "[" ']' (prettyItems (depth + 1) items)
      rw [prettyAt]
      exact htext ▸ .array (spells_prettyItems (depth + 1) items) hlaid
  | depth, .object members => by
      obtain ⟨text, htext, hlaid⟩ :=
        exists_laid_block depth "\x7b" '\x7d' (prettyMembers (depth + 1) members)
      rw [prettyAt]
      exact htext ▸ .object (spells_prettyMembers (depth + 1) members) hlaid

theorem spells_prettyItems : ∀ (depth : Nat) (items : List Json),
    List.Forall₂ Spells items ((prettyItems depth items).map String.toList)
  | _, [] => .nil
  | depth, item :: rest => .cons (spells_prettyAt depth item) (spells_prettyItems depth rest)

theorem spells_prettyMembers : ∀ (depth : Nat) (members : List (String × Json)),
    List.Forall₂ SpellsMember members ((prettyMembers depth members).map String.toList)
  | _, [] => .nil
  | depth, (key, value) :: rest => by
      have hspace : IsBlanks [' '] := isBlanks_singleton rfl
      have htext := SpellsMember.mk key isBlanks_nil hspace (spells_prettyAt depth value)
      refine .cons ?_ (spells_prettyMembers depth rest)
      simpa using htext

end

theorem spells_pretty (value : Json) : Spells value (pretty value).toList := spells_prettyAt 0 value

end SqlScript.Json
