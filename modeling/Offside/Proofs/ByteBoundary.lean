import Mathlib.Data.List.Basic
import Offside.Text.Utf8

/-!
# Characters and the bytes that spell them

A text is determined by its UTF-8 form, and so is any part of it that starts
where the text starts.  A byte below 128 is always a whole character, so that a
line break can be found by looking at single bytes.
-/

namespace Offside
namespace Utf8

theorem toByteArray_bytes (cs : List Char) :
    (bytes cs).toByteArray = cs.utf8Encode := rfl

/-- Texts whose bytes start alike start alike. -/
theorem prefix_of_bytes_append_eq
    {cs ds : List Char}
    (tail : List UInt8)
    (h : bytes cs ++ tail = bytes ds) :
    cs <+: ds := by
  apply List.isPrefix_of_utf8Encode_append_eq_utf8Encode tail.toByteArray
  rw [← toByteArray_bytes, ← toByteArray_bytes, ← List.toByteArray_append, h]

/-- A text that has the bytes of another at its start goes on from it. -/
theorem exists_append_of_take_bytes
    {cs ds : List Char}
    (h : (bytes ds).take (byteLength cs) = bytes cs) :
    ∃ rest, ds = cs ++ rest := by
  have hsplit : bytes cs ++ (bytes ds).drop (byteLength cs) = bytes ds := by
    rw [← h]
    exact List.take_append_drop _ _
  obtain ⟨rest, hrest⟩ := prefix_of_bytes_append_eq _ hsplit
  exact ⟨rest, hrest.symm⟩

/-- No two texts have the same bytes. -/
theorem bytes_injective {cs ds : List Char} (h : bytes cs = bytes ds) : cs = ds := by
  have hprefix : cs <+: ds :=
    prefix_of_bytes_append_eq [] (by rw [List.append_nil, h])
  obtain ⟨rest, rfl⟩ := hprefix
  have hlength := congrArg List.length h
  rw [bytes_append, List.length_append, length_bytes rest] at hlength
  cases rest with
  | nil => exact (List.append_nil cs).symm
  | cons c rest =>
      have hpos := c.utf8Size_pos
      rw [byteLength_cons] at hlength
      omega

theorem byteLength_pos {cs : List Char} (h : cs ≠ []) : 0 < byteLength cs := by
  cases cs with
  | nil => exact absurd rfl h
  | cons c cs =>
      have hpos := c.utf8Size_pos
      rw [byteLength_cons]
      omega

theorem byteLength_eq_zero_iff {cs : List Char} : byteLength cs = 0 ↔ cs = [] := by
  constructor
  · intro hzero
    by_contra hne
    have hpos := byteLength_pos hne
    omega
  · rintro rfl
    rfl

/-- The bytes before the place where two parts of a text meet. -/
theorem take_bytes_append (cs ds : List Char) :
    (bytes (cs ++ ds)).take (byteLength cs) = bytes cs := by
  rw [bytes_append, ← length_bytes cs, List.take_left']
  rfl

/-- The bytes behind the place where two parts of a text meet. -/
theorem drop_bytes_append (cs ds : List Char) :
    (bytes (cs ++ ds)).drop (byteLength cs) = bytes ds := by
  rw [bytes_append, ← length_bytes cs, List.drop_left']
  rfl

/-- A character of one byte is spelled by its number. -/
theorem bytes_singleton {c : Char} (hc : c.utf8Size = 1) : bytes [c] = [c.val.toUInt8] := by
  rw [bytes, List.flatMap_cons, List.flatMap_nil, List.append_nil,
    String.utf8EncodeChar_eq_singleton hc]

/-- The bytes of a character that takes more than one are all above 127. -/
theorem high_of_mem_utf8EncodeChar
    {c : Char}
    {b : UInt8}
    (hc : c.utf8Size ≠ 1)
    (hb : b ∈ String.utf8EncodeChar c) :
    128 ≤ b.toNat := by
  have hsize : ¬ c.val.toNat ≤ 0x7f := by
    intro hle
    apply hc
    rw [Char.utf8Size_eq_one_iff]
    exact UInt32.le_iff_toNat_le.2 hle
  unfold String.utf8EncodeChar at hb
  rw [if_neg hsize] at hb
  split at hb
  next =>
    simp only [List.mem_cons, List.not_mem_nil, or_false] at hb
    rcases hb with rfl | rfl <;> rw [UInt8.toNat_ofNat'] <;> omega
  next =>
    split at hb
    next =>
      simp only [List.mem_cons, List.not_mem_nil, or_false] at hb
      rcases hb with rfl | rfl | rfl <;> rw [UInt8.toNat_ofNat'] <;> omega
    next =>
      simp only [List.mem_cons, List.not_mem_nil, or_false] at hb
      rcases hb with rfl | rfl | rfl | rfl <;> rw [UInt8.toNat_ofNat'] <;> omega

/-- A byte below 128 is the whole of the character that it belongs to. -/
theorem exists_char_of_low_byte
    {cs : List Char}
    {k : Nat}
    {b : UInt8}
    (hb : b.toNat < 128)
    (h : (bytes cs)[k]? = some b) :
    ∃ before c after,
      cs = before ++ c :: after ∧
      byteLength before = k ∧
      c.utf8Size = 1 ∧
      c.val.toUInt8 = b := by
  induction cs generalizing k with
  | nil => simp [bytes] at h
  | cons c cs ih =>
      have hcons : bytes (c :: cs) = String.utf8EncodeChar c ++ bytes cs := rfl
      rw [hcons] at h
      by_cases hk : k < c.utf8Size
      · -- the byte lies in the first character
        rw [List.getElem?_append_left (by rwa [String.length_utf8EncodeChar])] at h
        by_cases hone : c.utf8Size = 1
        · have hzero : k = 0 := by omega
          rw [String.utf8EncodeChar_eq_singleton hone, hzero] at h
          exact ⟨[], c, cs, rfl, hzero.symm, hone, by simpa using h⟩
        · have hhigh := high_of_mem_utf8EncodeChar hone (List.mem_of_getElem? h)
          omega
      · rw [List.getElem?_append_right (by rw [String.length_utf8EncodeChar]; omega),
          String.length_utf8EncodeChar] at h
        obtain ⟨before, d, after, rfl, hbefore, hd⟩ := ih h
        exact ⟨c :: before, d, after, rfl, by rw [byteLength_cons, hbefore]; omega, hd⟩

/-- Characters of one byte are told apart by that byte. -/
theorem eq_of_toUInt8_eq
    {c d : Char}
    (hc : c.utf8Size = 1)
    (hd : d.utf8Size = 1)
    (h : c.val.toUInt8 = d.val.toUInt8) :
    c = d := by
  have hbytes : bytes [c] = bytes [d] := by
    rw [bytes_singleton hc, bytes_singleton hd, h]
  exact List.head_eq_of_cons_eq (bytes_injective hbytes)

theorem low_of_utf8Size_eq_one
    {c : Char}
    (hc : c.utf8Size = 1) :
    c.val.toUInt8.toNat < 128 := by
  have hle : c.val.toNat ≤ 127 :=
    UInt32.le_iff_toNat_le.1 (Char.utf8Size_eq_one_iff.1 hc)
  rw [UInt32.toNat_toUInt8]
  omega

/-- A text ends in a character of one byte when its last byte says so. -/
theorem getLast?_bytes_eq_iff
    {c : Char}
    (hc : c.utf8Size = 1)
    (cs : List Char) :
    (bytes cs).getLast? = some c.val.toUInt8 ↔ cs.getLast? = some c := by
  constructor
  · intro h
    rw [List.getLast?_eq_getElem?] at h
    obtain ⟨before, d, after, rfl, hbefore, hd, hbyte⟩ :=
      exists_char_of_low_byte (low_of_utf8Size_eq_one hc) h
    have hafter : byteLength after = 0 := by
      rw [length_bytes, byteLength_append, byteLength_cons] at hbefore
      omega
    rw [byteLength_eq_zero_iff.1 hafter, eq_of_toUInt8_eq hd hc hbyte]
    exact List.getLast?_concat
  · intro h
    obtain ⟨before, rfl⟩ := List.getLast?_eq_some_iff.1 h
    rw [bytes_append, bytes_singleton hc]
    exact List.getLast?_concat

/-- A text starts with a character of one byte when its first byte says so. -/
theorem head?_bytes_eq_iff
    {c : Char}
    (hc : c.utf8Size = 1)
    (cs : List Char) :
    (bytes cs).head? = some c.val.toUInt8 ↔ cs.head? = some c := by
  constructor
  · intro h
    rw [List.head?_eq_getElem?] at h
    obtain ⟨before, d, after, rfl, hbefore, hd, hbyte⟩ :=
      exists_char_of_low_byte (low_of_utf8Size_eq_one hc) h
    rw [byteLength_eq_zero_iff.1 hbefore, eq_of_toUInt8_eq hd hc hbyte]
    rfl
  · intro h
    obtain ⟨after, rfl⟩ := List.head?_eq_some_iff.1 h
    have hcons : bytes (c :: after) = bytes [c] ++ bytes after := bytes_append [c] after
    rw [hcons, bytes_singleton hc]
    rfl

end Utf8
end Offside
