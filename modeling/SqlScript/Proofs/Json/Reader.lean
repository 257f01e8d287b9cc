import SqlScript.Proofs.Json.Layout
import SqlScript.Proofs.Json.Numeral
import SqlScript.Proofs.Json.Quoted

/-!
# Reading texts of JSON values

Scalars and lists of strings are read from every text of theirs, whatever blanks are before and
whatever stands behind. An item of a container is met where it is laid out (`Laid.exists_item`).
-/

namespace SqlScript.Json

variable {blanks text rest : List Char} {closing c : Char} {first : Bool}

/-! ## Blanks -/

theorem skipBlank_append (h : IsBlanks blanks) (text : List Char) :
    skipBlank (blanks ++ text) = skipBlank text :=
  List.dropWhile_append_of_pos h

theorem skipBlank_cons (h : isBlank c = false) (text : List Char) :
    skipBlank (c :: text) = c :: text :=
  List.dropWhile_cons_of_neg (by rw [h]; decide)

theorem skipBlank_append_cons (hblanks : IsBlanks blanks) (hc : isBlank c = false)
    (text : List Char) : skipBlank (blanks ++ c :: text) = c :: text := by
  rw [skipBlank_append hblanks, skipBlank_cons hc]

theorem endsNumeral_append (hblanks : IsBlanks blanks) (h : EndsNumeral rest) :
    EndsNumeral (blanks ++ rest) := by
  cases blanks with
  | nil => exact h
  | cons c blanks =>
      rintro _ ⟨⟩
      have hc := hblanks c List.mem_cons_self
      simp only [isBlank, Bool.or_eq_true, beq_iff_eq] at hc
      rcases hc with ((rfl | rfl) | rfl) | rfl <;> decide

/-! ## Containers -/

/-- A character that opens the text of an item: no blank and no mark of the container's own. -/
structure Opens (closing c : Char) : Prop where
  blank : isBlank c = false
  closing : c ≠ closing

/-- A container ends where no items are left. -/
theorem Laid.skipBlank_close (hclosing : isBlank closing = false) (h : Laid closing first [] text)
    (rest : List Char) : skipBlank (text ++ rest) = closing :: rest := by
  cases h with
  | close hblanks =>
      rw [List.append_assoc, List.singleton_append, skipBlank_append_cons hblanks hclosing]

/-- Behind blanks there is the next item, or the comma before it. -/
theorem Laid.exists_item {item : List Char} {items : List (List Char)}
    (h : Laid closing first ((c :: item) :: items) text) (hc : Opens closing c)
    (hcomma : closing ≠ ',') (rest : List Char) :
    ∃ head tail later, skipBlank (text ++ rest) = head :: tail ∧ head ≠ closing ∧
      nextItem closing first (head :: tail) = .ok (c :: (item ++ (later ++ rest))) ∧
      Laid closing false items later := by
  cases h with
  | @item _ _ _ later _ hlead hlaid =>
      cases hlead with
      | first hblanks =>
          refine ⟨c, _, later, ?_, hc.closing, rfl, hlaid⟩
          simp [skipBlank_append_cons hblanks hc.blank]
      | @next before after hbefore hafter =>
          refine ⟨',', after ++ c :: (item ++ (later ++ rest)), later, ?_, hcomma.symm, ?_, hlaid⟩
          · simp [skipBlank_append_cons hbefore (c := ',') (by decide)]
          · simp [nextItem, skipBlank_append_cons hafter hc.blank, hc.closing]

theorem Laid.endsNumeral {items : List (List Char)} (h : Laid closing false items text)
    (hclosing : EndsNumeral (closing :: rest)) : EndsNumeral (text ++ rest) := by
  cases h with
  | close hblanks =>
      rw [List.append_assoc]
      exact endsNumeral_append hblanks hclosing
  | item hlead hlaid =>
      cases hlead with
      | next hbefore hafter =>
          simp only [List.append_assoc, List.cons_append]
          refine endsNumeral_append hbefore ?_
          rintro _ ⟨⟩
          decide

/-- Each item but the first has a comma before it, and the closing mark stands behind the last. -/
theorem Laid.length_le {items : List (List Char)} (h : Laid closing first items text) :
    items.length + (if first then 0 else 1) ≤ text.length := by
  induction h with
  | @close first blanks =>
      rw [List.length_append, List.length_singleton, List.length_nil]
      split <;> omega
  | @item first lead item text items hlead _ ih =>
      have hcomma : (if first then 0 else 1) ≤ lead.length := by
        cases hlead with
        | first => exact Nat.zero_le _
        | next => simp; omega
      simp only [List.length_append, List.length_cons] at ih ⊢
      simp only [Bool.false_eq_true, if_false] at ih
      omega

/-! ## Scalars -/

theorem toList_quote (value : String) :
    (quote value).toList = '\x22' :: (value.toList.flatMap escape ++ ['\x22']) := by
  simp [quote]

theorem readString_quote (hblanks : IsBlanks blanks) (value : String) (rest : List Char) :
    readString (blanks ++ ((quote value).toList ++ rest)) = .ok (value, rest) := by
  rw [toList_quote, List.cons_append, List.append_assoc, List.singleton_append, readString,
    skipBlank_append_cons hblanks (by decide)]
  exact readQuoted_escaped value rest

theorem readWord_append (word rest : List Char) : readWord word (word ++ rest) = .ok rest := by
  induction word with
  | nil => rfl
  | cons letter word ih => rw [List.cons_append, readWord, if_pos rfl, ih]

theorem readBool_text (hblanks : IsBlanks blanks) (value : Bool) (rest : List Char) :
    readBool (blanks ++ ((if value then "true" else "false").toList ++ rest)) =
      .ok (value, rest) := by
  cases value with
  | true =>
      change readBool (blanks ++ 't' :: (['r', 'u', 'e'] ++ rest)) = _
      rw [readBool, skipBlank_append_cons hblanks (by decide)]
      simp only [readWord_append, Except.map]
  | false =>
      change readBool (blanks ++ 'f' :: (['a', 'l', 's', 'e'] ++ rest)) = _
      rw [readBool, skipBlank_append_cons hblanks (by decide)]
      simp only [readWord_append, Except.map]

theorem readWord32_toString (hblanks : IsBlanks blanks) (value : UInt32) (h : EndsNumeral rest) :
    readWord32 (blanks ++ ((toString value.toNat).toList ++ rest)) = .ok (value, rest) := by
  have hnumber : readNumber ((toString value.toNat).toList ++ rest) =
      .ok (.ofNat value.toNat, rest) :=
    readNumber_toString (Nat.lt_trans value.toNat_lt (by decide)) h
  cases hdigits : (toString value.toNat).toList with
  | nil => exact absurd (Text.toList_toString _ ▸ hdigits) Nat.toDigits_ne_nil
  | cons c digits =>
      have hc : c.isDigit = true :=
        Text.isDigit_of_mem_toString (n := value.toNat) (hdigits ▸ List.mem_cons_self)
      have hblank : isBlank c = false := by
        rw [Bool.eq_false_iff]
        intro hblank
        simp only [isBlank, Bool.or_eq_true, beq_iff_eq] at hblank
        rcases hblank with ((rfl | rfl) | rfl) | rfl <;> exact absurd hc (by decide)
      rw [hdigits, List.cons_append] at hnumber
      rw [List.cons_append, readWord32, skipBlank_append_cons hblanks hblank]
      simp [hc, hnumber, Numeral.natural?_ofNat, bind, Except.bind, pure, Except.pure,
        value.toNat_lt]

/-! ## Lists of strings -/

theorem opens_quote (h : closing ≠ '\x22') : Opens closing '\x22' := ⟨by decide, h.symm⟩

theorem eq_map_of_spells {values : List String} {texts : List (List Char)}
    (h : List.Forall₂ Spells (values.map .string) texts) :
    texts = values.map fun value => (quote value).toList := by
  induction values generalizing texts with
  | nil =>
      cases h
      rfl
  | cons value values ih =>
      cases h with
      | cons hvalue hvalues =>
          rw [eq_of_spells_string hvalue, ih hvalues, List.map_cons]

theorem readStringItems_laid {values : List String} {fuel : Nat} (hfuel : values.length < fuel)
    (h : Laid ']' first (values.map fun value => (quote value).toList) text) (rest : List Char) :
    readStringItems fuel first (text ++ rest) = .ok (values, rest) := by
  induction values generalizing fuel first text with
  | nil =>
      obtain ⟨fuel, rfl⟩ := Nat.exists_eq_add_one_of_ne_zero (Nat.ne_zero_of_lt hfuel)
      rw [readStringItems, h.skipBlank_close (by decide)]
      rfl
  | cons value values ih =>
      obtain ⟨fuel, rfl⟩ := Nat.exists_eq_add_one_of_ne_zero (Nat.ne_zero_of_lt hfuel)
      rw [List.map_cons, toList_quote] at h
      obtain ⟨head, tail, later, hskip, hhead, hnext, hlater⟩ :=
        h.exists_item (opens_quote (by decide)) (by decide) rest
      have hread := readString_quote isBlanks_nil value (later ++ rest)
      rw [List.nil_append, toList_quote, List.cons_append] at hread
      have hrest := ih (Nat.lt_of_succ_lt_succ hfuel) hlater
      rw [readStringItems, hskip]
      split
      · next heq => cases heq
      · next heq => exact absurd (List.cons.inj heq).1 hhead
      · simp only [hnext, hread, hrest, bind, Except.bind, pure, Except.pure]

theorem readStrings_spelled {values : List String} (hblanks : IsBlanks blanks)
    (h : Spells (.array (values.map .string)) text) (rest : List Char) :
    readStrings (blanks ++ (text ++ rest)) = .ok (values, rest) := by
  cases h with
  | @array _ texts text hitems hlaid =>
      have hlength := hlaid.length_le
      rw [eq_map_of_spells hitems] at hlaid hlength
      have hfuel : values.length < fuelFor (text ++ rest) := by
        rw [List.length_map] at hlength
        rw [fuelFor, List.length_append]
        simp only [if_true] at hlength
        omega
      rw [readStrings, List.cons_append, skipBlank_append_cons hblanks (by decide)]
      exact readStringItems_laid hfuel hlaid rest

/-! ## Members -/

theorem readValue_quote (hblanks : IsBlanks blanks) (fuel depth : Nat) (value : String)
    (rest : List Char) :
    readValue (fuel + 1) depth (blanks ++ ((quote value).toList ++ rest)) =
      .ok (.string value, rest) := by
  rw [toList_quote, List.cons_append, List.append_assoc, List.singleton_append, readValue,
    skipBlank_append_cons hblanks (by decide)]
  simp [readQuoted_escaped, bind, Except.bind, pure, Except.pure]

/-- A member is met where it is laid out: its key, and its value behind blanks. -/
theorem Laid.exists_member {key : String} {value : Json} {members : List (String × Json)}
    {texts : List (List Char)} (h : Laid '\x7d' first texts text)
    (hmembers : List.Forall₂ SpellsMember ((key, value) :: members) texts) (rest : List Char) :
    ∃ head tail keyText colon blanks valueText laterTexts later,
      skipBlank (text ++ rest) = head :: tail ∧ head ≠ '\x7d' ∧
      nextItem '\x7d' first (head :: tail) = .ok ('\x22' :: keyText) ∧
      readQuoted keyText = .ok (key, colon) ∧
      afterColon colon = .ok (blanks ++ (valueText ++ (later ++ rest))) ∧
      IsBlanks blanks ∧ Spells value valueText ∧
      List.Forall₂ SpellsMember members laterTexts ∧ Laid '\x7d' false laterTexts later := by
  cases hmembers with
  | @cons _ _ _ laterTexts hmember hlater =>
      cases hmember with
      | @mk _ _ before after valueText hbefore hafter hvalue =>
          rw [toList_quote, List.cons_append] at h
          obtain ⟨head, tail, later, hskip, hhead, hnext, hlaid⟩ :=
            h.exists_item (opens_quote (by decide)) (by decide) rest
          refine ⟨head, tail, _, before ++ ':' :: (after ++ (valueText ++ (later ++ rest))), after,
            valueText, laterTexts, later, hskip, hhead, hnext, ?_, ?_, hafter, hvalue, hlater, hlaid⟩
          · simpa using readQuoted_escaped key
              (before ++ ':' :: (after ++ (valueText ++ (later ++ rest))))
          · simp [afterColon, skipBlank_append_cons hbefore (c := ':') (by decide)]

end SqlScript.Json
