import PhobosClient.Lib.Text

/-!
# Utf8 — texts as bytes

`str::from_utf8` on lists of bytes: `decode` is the standard library's decoder and `encode`
its inverse. A decoded text has no bytes but its own (`encode_of_decode`), so a list that
begins like no text does is rejected: **`decode_stray`**, for an ASCII byte with a
continuation byte behind it.
-/

namespace Utf8

def encode (s : Text) : List UInt8 := s.flatMap String.utf8EncodeChar

def decode (bytes : List UInt8) : Option Text := bytes.toByteArray.utf8Decode?.map Array.toList

theorem toByteArray_encode (s : Text) : (encode s).toByteArray = s.utf8Encode := rfl

theorem decode_encode (s : Text) : decode (encode s) = some s := by
  rw [decode, toByteArray_encode, List.utf8Decode?_utf8Encode]
  rfl

theorem encode_of_decode {bytes : List UInt8} {s : Text} (h : decode bytes = some s) :
    encode s = bytes := by
  obtain ⟨chars, hchars, rfl⟩ := Option.map_eq_some_iff.mp h
  have hencode : chars.toList.utf8Encode = bytes.toByteArray := by
    rw [← ByteArray.utf8Encode_get_utf8Decode? (b := bytes.toByteArray) (h := by rw [hchars]; rfl)]
    simp only [hchars, Option.get_some]
  have hdata := congrArg (fun b : ByteArray => b.data.toList) hencode
  simpa [List.utf8Encode, encode] using hdata

/-- A byte with its top bit set is not an ASCII byte. -/
theorem not_lt_of_or {x m : UInt8} (hm : 0x80 ≤ m) : ¬ (x ||| m) < 0x80 := by
  rw [UInt8.lt_iff_toNat_lt, UInt8.toNat_or]
  have hbound : 0x80 ≤ m.toNat := UInt8.le_iff_toNat_le.mp hm
  have hor : m.toNat ≤ x.toNat ||| m.toNat := Nat.right_le_or
  show ¬ (x.toNat ||| m.toNat) < 0x80
  omega

/-- A character whose encoding starts with an ASCII byte has no other bytes. -/
theorem utf8EncodeChar_ascii {c : Char} {a : UInt8} {rest : List UInt8}
    (h : String.utf8EncodeChar c = a :: rest) (ha : a < 0x80) : rest = [] := by
  -- the longer forms all start with a byte that has its top bit set
  match hsize : c.utf8Size, c.utf8Size_pos, c.utf8Size_le_four with
  | 1, _, _ =>
    rw [String.utf8EncodeChar_eq_singleton hsize] at h
    exact (List.cons.inj h).2.symm
  | 2, _, _ =>
    rw [String.utf8EncodeChar_eq_cons_cons hsize] at h
    rw [← (List.cons.inj h).1] at ha
    exact absurd ha (not_lt_of_or (by decide))
  | 3, _, _ =>
    rw [String.utf8EncodeChar_eq_cons_cons_cons hsize] at h
    rw [← (List.cons.inj h).1] at ha
    exact absurd ha (not_lt_of_or (by decide))
  | 4, _, _ =>
    rw [String.utf8EncodeChar_eq_cons_cons_cons_cons hsize] at h
    rw [← (List.cons.inj h).1] at ha
    exact absurd ha (not_lt_of_or (by decide))

theorem head_encode {s : Text} {b : UInt8} {rest : List UInt8} (h : encode s = b :: rest) :
    b.IsUTF8FirstByte := by
  cases s with
  | nil => cases h
  | cons c cs =>
    rw [encode, List.flatMap_cons] at h
    have hfirst := UInt8.isUTF8FirstByte_getElem_zero_utf8EncodeChar (c := c)
    cases hchar : String.utf8EncodeChar c with
    | nil => exact absurd hchar String.utf8EncodeChar_ne_nil
    | cons d ds =>
      rw [hchar] at h
      simp only [hchar] at hfirst
      rw [← (List.cons.inj h).1]
      exact hfirst

/-- **An ASCII byte before a continuation byte starts no text.** -/
theorem decode_stray {a b : UInt8} (ha : a < 0x80) (hb : ¬ b.IsUTF8FirstByte)
    (rest : List UInt8) : decode (a :: b :: rest) = none := by
  cases hdecode : decode (a :: b :: rest) with
  | none => rfl
  | some s =>
    have hencode := encode_of_decode hdecode
    cases s with
    | nil => cases hencode
    | cons c cs =>
      rw [encode, List.flatMap_cons] at hencode
      cases hchar : String.utf8EncodeChar c with
      | nil => exact absurd hchar String.utf8EncodeChar_ne_nil
      | cons d ds =>
        rw [hchar, List.cons_append] at hencode
        obtain ⟨rfl, htail⟩ := List.cons.inj hencode
        -- `a` is a whole character, so `b` would be the first byte of the next one
        rw [utf8EncodeChar_ascii hchar ha] at htail
        exact absurd (head_encode htail) hb

end Utf8
