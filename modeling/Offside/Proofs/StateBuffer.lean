import Offside.Proofs.StateCodec

/-!
# Writing a state into a buffer

A host keeps one buffer that is large enough for every state, and has each state written
to its front.  Two numbers must agree for that: the announced length, which bounds the
part of the buffer that is written to, and the number of fields that are written there.
Were there more fields than room, the last ones would be lost; were there fewer, bytes of
an earlier state would stay inside the new one.

A buffer is described as three parts, what stands before the place that is written to,
what stood there, and what stands behind it.  Writing replaces the second part by as many
bytes and leaves the other two alone (`toList_writeBytes`, `toList_writeFields`).  As the
fields of a state fill the announced length exactly, whatever its depth is, the front of
the buffer is then its written form.
-/

namespace Offside
namespace IndentState

section

variable {n : Nat} {buffer : Vector UInt8 n} {before old after : List UInt8}

/-- Bytes that are written into a buffer replace as many bytes. -/
theorem toList_writeBytes
    {bs : List UInt8}
    (hbuffer : buffer.toList = before ++ (old ++ after))
    (hlength : old.length = bs.length) :
    (writeBytes buffer before.length bs).toList = before ++ (bs ++ after) := by
  induction bs generalizing buffer before old with
  | nil =>
      rw [List.eq_nil_of_length_eq_zero hlength] at hbuffer
      exact hbuffer
  | cons b bs ih =>
      cases old with
      | nil => cases hlength
      | cons o old =>
          have hset :
              (buffer.setIfInBounds before.length b).toList = before ++ [b] ++ (old ++ after) := by
            rw [Vector.toList_setIfInBounds, hbuffer]
            simp
          have hrest := ih hset (Nat.succ.inj hlength)
          rw [List.length_append, List.length_singleton] at hrest
          rw [writeBytes, hrest]
          simp

/-- Fields that fill a part of a buffer replace it, and nothing else. -/
theorem toList_writeFields
    {words : List UInt32}
    (hbuffer : buffer.toList = before ++ (old ++ after))
    (hlength : old.length = words.length * wordBytes) :
    (writeFields buffer before.length (before.length + old.length) words).toList =
      before ++ (words.flatMap LittleEndian.bytes ++ after) := by
  induction words generalizing buffer before old with
  | nil =>
      rw [List.length_nil, Nat.zero_mul] at hlength
      rw [List.eq_nil_of_length_eq_zero hlength] at hbuffer
      exact hbuffer
  | cons w words ih =>
      rw [List.length_cons, Nat.succ_mul] at hlength
      have hroom : before.length + wordBytes ≤ before.length + old.length := by omega
      have hfield : (old.take wordBytes).length = (LittleEndian.bytes w).length := by
        rw [List.length_take, Nat.min_eq_left (by omega), LittleEndian.bytes_length]
        rfl
      have hsplit :
          buffer.toList = before ++ (old.take wordBytes ++ (old.drop wordBytes ++ after)) := by
        rw [hbuffer, ← List.append_assoc (old.take wordBytes), List.take_append_drop]
      have hwritten :
          (writeBytes buffer before.length (LittleEndian.bytes w)).toList =
            before ++ LittleEndian.bytes w ++ (old.drop wordBytes ++ after) := by
        rw [toList_writeBytes hsplit hfield, List.append_assoc]
      have hposition : (before ++ LittleEndian.bytes w).length = before.length + wordBytes := by
        rw [List.length_append, LittleEndian.bytes_length]
        rfl
      have hstop :
          before.length + wordBytes + (old.drop wordBytes).length =
            before.length + old.length := by
        rw [List.length_drop]
        omega
      have hrest := ih hwritten (by rw [List.length_drop]; omega)
      rw [hposition, hstop] at hrest
      rw [writeFields, if_pos hroom, hrest, List.flatMap_cons]
      simp

end

/-- The announced length is zero for what looks like the initial state only. -/
theorem encodedLength_eq_zero_iff (s : IndentState) :
    s.encodedLength = 0 ↔ (s == initial) = true := by
  rw [beq_iff_view_eq, ← isInitial_iff, encodedLength]
  split
  next hinitial => simp [hinitial]
  next hinitial =>
    have hpos : 0 < (s.depth + trailerFields) * wordBytes :=
      Nat.mul_pos (Nat.add_pos_right _ (by decide)) (by decide)
    simp [hinitial, Nat.ne_of_gt hpos]

theorem encodedLength_of_ne_zero
    {s : IndentState}
    (h : s.encodedLength ≠ 0) :
    s.encodedLength = (s.depth + trailerFields) * wordBytes := by
  rw [encodedLength] at h ⊢
  split
  next hinitial => exact absurd (if_pos hinitial) h
  next => rfl

/-- The buffer has room for every state. -/
theorem encodedLength_le (s : IndentState) : s.encodedLength ≤ longestForm := by
  by_cases hzero : s.encodedLength = 0
  · rw [hzero]
    exact Nat.zero_le _
  · rw [encodedLength_of_ne_zero hzero]
    exact Nat.mul_le_mul_right _ (Nat.add_le_add_right s.depth_le _)

/-- What a buffer holds after a state was written into it. -/
theorem toList_writeTo
    (s : IndentState)
    (buffer : Vector UInt8 longestForm) :
    (s.writeTo buffer).2.toList = s.encode ++ buffer.toList.drop s.encodedLength := by
  by_cases hzero : s.encodedLength = 0
  · have hnil : s.encode = [] := List.eq_nil_of_length_eq_zero (by rw [encode_length, hzero])
    rw [writeTo, if_pos hzero, hnil, hzero]
    rfl
  · have hlength : (buffer.toList.take s.encodedLength).length = s.encodedLength := by
      rw [List.length_take, Vector.length_toList, Nat.min_eq_left s.encodedLength_le]
    have hfields :
        (buffer.toList.take s.encodedLength).length = s.fields.length * wordBytes := by
      rw [hlength, fields_length, encodedLength_of_ne_zero hzero]
    have hsplit :
        buffer.toList =
          [] ++ (buffer.toList.take s.encodedLength ++ buffer.toList.drop s.encodedLength) := by
      rw [List.nil_append, List.take_append_drop]
    have hwritten := toList_writeFields hsplit hfields
    rw [hlength, List.length_nil, Nat.zero_add, List.nil_append] at hwritten
    have hnotInitial : ¬ s.isInitial = true := by
      intro hinitial
      exact hzero (if_pos hinitial)
    rw [writeTo, if_neg hzero, hwritten, encode, if_neg hnotInitial]

/-- Writing a state into a buffer returns the announced length, which is zero exactly for
a state that equals the initial one, and three fields more than there are levels for any
other.  So many bytes at the front of the buffer are then the written form of the state,
whatever was there before, and all bytes behind them are as they were. -/
theorem writeTo_replaces_front
    (s : IndentState)
    (buffer : Vector UInt8 longestForm) :
    (s.writeTo buffer).1 = s.encodedLength ∧
    (s.encodedLength = 0 ↔ (s == initial) = true) ∧
    (s.encodedLength = 0 ∨ s.encodedLength = (s.depth + 3) * 4) ∧
    s.encodedLength ≤ 524 ∧
    (s.writeTo buffer).2.toList.take (s.writeTo buffer).1 = s.encode ∧
    (s.writeTo buffer).2.toList.drop (s.writeTo buffer).1 =
      buffer.toList.drop (s.writeTo buffer).1 := by
  have hreturned : (s.writeTo buffer).1 = s.encodedLength := by
    rw [writeTo]
    split
    next hzero => exact hzero.symm
    next => rfl
  have hannounced := s.encode_length
  rw [hreturned, toList_writeTo]
  refine ⟨rfl, encodedLength_eq_zero_iff s, ?_, encodedLength_le s, ?_, ?_⟩
  · exact or_iff_not_imp_left.2 encodedLength_of_ne_zero
  · exact List.take_left' hannounced
  · exact List.drop_left' hannounced

end IndentState
end Offside
