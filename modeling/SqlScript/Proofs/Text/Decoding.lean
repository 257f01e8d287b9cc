import SqlScript.Text.Decoding

/-!
# Decoded bytes

Text is decoded to itself (`decode_encoded`), and no bytes are decoded to more characters than they
are (`length_decode_le`).
-/

namespace SqlScript.Text

theorem decodeFrom_append (skipped rest : List UInt8) :
    decodeFrom skipped.length (skipped ++ rest) = decodeFrom 0 rest := by
  induction skipped with
  | nil => rfl
  | cons byte skipped ih => exact ih

theorem decode_char_append (c : Char) (rest : List UInt8) :
    decode (String.utf8EncodeChar c ++ rest) = c :: decode rest := by
  obtain ⟨first, tail, hencoded⟩ := List.exists_cons_of_ne_nil (String.utf8EncodeChar_ne_nil (c := c))
  have hlength : c.utf8Size - 1 = tail.length := by
    rw [← String.length_utf8EncodeChar, hencoded]
    rfl
  have hchar : (first :: (tail ++ rest)).toByteArray.utf8DecodeChar? 0 = some c := by
    rw [← List.cons_append, ← hencoded, List.toByteArray_append]
    exact ByteArray.utf8DecodeChar?_utf8EncodeChar_append
  rw [decode, hencoded, List.cons_append, decodeFrom]
  simp only [hchar, hlength, decodeFrom_append]
  rfl

/-- Text is decoded to itself. -/
theorem decode_encoded (cs : List Char) : decode (cs.flatMap String.utf8EncodeChar) = cs := by
  induction cs with
  | nil => rfl
  | cons c cs ih => rw [List.flatMap_cons, decode_char_append, ih]

theorem toUTF8_eq_flatMap (text : String) :
    text.toUTF8.data.toList = text.toList.flatMap String.utf8EncodeChar := by
  rw [String.toUTF8_eq_toByteArray, ← String.utf8Encode_toList, List.utf8Encode,
    List.toList_data_toByteArray]

theorem length_decodeFrom_le (skip : Nat) (bytes : List UInt8) :
    (decodeFrom skip bytes).length ≤ bytes.length := by
  induction bytes generalizing skip with
  | nil => cases skip <;> exact Nat.le_refl 0
  | cons byte rest ih =>
      cases skip with
      | succ skip => exact Nat.le_succ_of_le (ih skip)
      | zero =>
          rw [decodeFrom]
          split
          · exact Nat.succ_le_succ (ih _)
          · exact Nat.succ_le_succ (ih _)

theorem length_decode_le (bytes : List UInt8) : (decode bytes).length ≤ bytes.length :=
  length_decodeFrom_le 0 bytes

example : decode [0x61, 0xE2, 0x82, 0x2E, 0xFF] = ['a', replacement, '.', replacement] := by
  decide +kernel

theorem decode_ne_nil {bytes : List UInt8} (h : bytes ≠ []) : decode bytes ≠ [] := by
  obtain ⟨byte, rest, rfl⟩ := List.exists_cons_of_ne_nil h
  rw [decode, decodeFrom]
  split <;> exact List.cons_ne_nil _ _

/-- The byte of a character that has one byte stands in no other character. -/
theorem eq_of_mem_utf8EncodeChar {c d : Char} {byte : UInt8} (hd : String.utf8EncodeChar d = [byte])
    (h : byte ∈ String.utf8EncodeChar c) : c = d := by
  have hfirst : byte.IsUTF8FirstByte := by
    have hzero := UInt8.isUTF8FirstByte_getElem_zero_utf8EncodeChar (c := d)
    simpa only [hd, List.getElem_cons_zero] using hzero
  obtain ⟨i, hi, hbyte⟩ := List.getElem_of_mem h
  -- Only the first byte of a character can be the first byte of any.
  obtain rfl : i = 0 := UInt8.isUTF8FirstByte_getElem_utf8EncodeChar.1 (hbyte ▸ hfirst)
  obtain ⟨first, tail, hencoded⟩ := List.exists_cons_of_ne_nil (String.utf8EncodeChar_ne_nil (c := c))
  obtain rfl : first = byte := by simpa only [hencoded, List.getElem_cons_zero] using hbyte
  have hsame : decode (String.utf8EncodeChar c ++ []) = decode (String.utf8EncodeChar d ++ tail) := by
    rw [hencoded, hd, List.append_nil, List.singleton_append]
  rw [decode_char_append, decode_char_append] at hsame
  exact (List.cons.inj hsame).1

end SqlScript.Text
