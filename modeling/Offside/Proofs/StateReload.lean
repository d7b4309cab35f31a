import Offside.Proofs.SlotRow

/-!
# Which bytes are read, and what becomes of the state before

Whether bytes are read as a state is decided by their number alone.  A number that is
refused has one of three defects, which are looked for in a fixed order (`defect?`), and
the error names the number and the defect.

A state that is to be replaced by what some bytes spell does not come through in either
case.  When they are read it is replaced as a whole, and when they are refused it is as
it was before the first line (`reload_replaces_state`).
-/

namespace Offside
namespace IndentState

/-- What is wrong with so many bytes, if anything is. -/
def defect? (length : Nat) : Option Defect :=
  if length % 4 ≠ 0 then some .ragged
  else if length = 0 then none
  else if length < 3 * 4 then some .tooShort
  else if (128 + 3) * 4 < length then some .tooLong
  else none

theorem defect?_zero : defect? 0 = none := rfl

theorem depthOfLength_eq_error_iff
    {length : Nat}
    {e : Error}
    (hpos : 0 < length) :
    depthOfLength length = .error e ↔
      ∃ defect, defect? length = some defect ∧ e = .malformed length defect := by
  have hword : wordBytes = 4 := rfl
  have htrailer : trailerFields = 3 := rfl
  have hdepth : maxDepth = 128 := rfl
  have hdiv := Nat.div_add_mod length 4
  unfold depthOfLength defect?
  rw [hword, htrailer, hdepth]
  by_cases hragged : length % 4 ≠ 0
  · simp [hragged, eq_comm]
  · rw [if_neg hragged, if_neg hragged, if_neg (Nat.ne_of_gt hpos)]
    by_cases hshort : length < 3 * 4
    · have hfields : length / 4 < 3 := by omega
      simp [hshort, hfields, eq_comm]
    · have hfields : ¬ length / 4 < 3 := by omega
      rw [if_neg hfields, if_neg hshort]
      by_cases hlong : (128 + 3) * 4 < length
      · have hroom : ¬ length / 4 - 3 < 128 + 1 := by omega
        rw [dif_neg hroom, if_pos hlong]
        simp [eq_comm]
      · have hroom : length / 4 - 3 < 128 + 1 := by omega
        rw [dif_pos hroom, if_neg hlong]
        simp

/-- Bytes are refused exactly for the defect of their number. -/
theorem decode_eq_error_iff
    {bytes : List UInt8}
    {e : Error} :
    decode bytes = .error e ↔
      ∃ defect, defect? bytes.length = some defect ∧ e = .malformed bytes.length defect := by
  by_cases hnil : bytes = []
  · subst hnil
    simp [defect?_zero]
  · have hpos : 0 < bytes.length := List.length_pos_iff.2 hnil
    rw [decode, if_neg (by simpa using hnil), ← depthOfLength_eq_error_iff hpos]
    cases depthOfLength bytes.length <;> simp [Except.map]

theorem reload_of_decode_eq_ok
    {bytes : List UInt8}
    {t : IndentState}
    (h : decode bytes = .ok t)
    (s : IndentState) :
    s.reload bytes = (t, .ok ()) := by
  rw [reload, h]

theorem reload_of_decode_eq_error
    {bytes : List UInt8}
    {e : Error}
    (h : decode bytes = .error e)
    (s : IndentState) :
    s.reload bytes = (s.reset, .error e) := by
  rw [reload, h]

/-- Bytes spell a state when there are none, or when they are as many as up to 128 levels
and three numbers take; it does not matter what they are.  All others are refused, first
when they are no whole number of fields, then when they are too few for the three
numbers, and else because they are too many.  No byte and no slot is asked for that is
not there.  A state that is replaced by what bytes spell becomes that state, and equals
the initial one when they are refused, whatever it was before. -/
theorem reload_replaces_state
    (s : IndentState)
    (bytes : List UInt8) :
    ((∃ t, decode bytes = .ok t) ↔
      bytes.length = 0 ∨ ∃ n ≤ 128, bytes.length = (n + 3) * 4) ∧
    (∀ e,
      decode bytes = .error e ↔
        bytes.length % 4 ≠ 0 ∧ e = .malformed bytes.length .ragged ∨
        bytes.length % 4 = 0 ∧ bytes.length ≠ 0 ∧ bytes.length / 4 < 3 ∧
          e = .malformed bytes.length .tooShort ∨
        bytes.length % 4 = 0 ∧ 128 + 3 < bytes.length / 4 ∧
          e = .malformed bytes.length .tooLong) ∧
    SlotRow.decode? bytes = some ((decode bytes).map row) ∧
    s.row.reload? bytes = some ((s.reload bytes).1.row, (s.reload bytes).2) ∧
    (∀ t, decode bytes = .ok t → s.reload bytes = (t, .ok ())) ∧
    (∀ e,
      decode bytes = .error e →
        (s.reload bytes).2 = .error e ∧ ((s.reload bytes).1 == initial) = true) ∧
    ∀ other : IndentState,
      ((s.reload bytes).1 == (other.reload bytes).1) = true ∧
        (s.reload bytes).2 = (other.reload bytes).2 := by
  refine ⟨exists_decode_iff, ?_, SlotRow.decode?_eq bytes, SlotRow.reload?_row s bytes, ?_, ?_, ?_⟩
  · intro e
    have hdiv := Nat.div_add_mod bytes.length 4
    rw [decode_eq_error_iff, defect?]
    constructor
    · rintro ⟨defect, hdefect, rfl⟩
      split_ifs at hdefect with hragged hnone hshort hlong
      all_goals
        cases hdefect
      · exact Or.inl ⟨hragged, rfl⟩
      · exact Or.inr (Or.inl ⟨by omega, hnone, by omega, rfl⟩)
      · exact Or.inr (Or.inr ⟨by omega, by omega, rfl⟩)
    · rintro (⟨hragged, rfl⟩ | ⟨hwhole, hsome, hshort, rfl⟩ | ⟨hwhole, hlong, rfl⟩)
      · exact ⟨.ragged, if_pos hragged, rfl⟩
      · refine ⟨.tooShort, ?_, rfl⟩
        rw [if_neg (by omega), if_neg hsome, if_pos (by omega)]
      · refine ⟨.tooLong, ?_, rfl⟩
        rw [if_neg (by omega), if_neg (by omega), if_neg (by omega), if_pos (by omega)]
  · exact fun t h => reload_of_decode_eq_ok h s
  · intro e h
    rw [reload_of_decode_eq_error h]
    exact ⟨rfl, (beq_iff_view_eq _ _).2 (view_reset s)⟩
  · intro other
    rw [beq_iff_view_eq]
    cases h : decode bytes with
    | error e =>
        rw [reload_of_decode_eq_error h, reload_of_decode_eq_error h, view_reset, view_reset]
        exact ⟨rfl, rfl⟩
    | ok t =>
        rw [reload_of_decode_eq_ok h, reload_of_decode_eq_ok h]
        exact ⟨rfl, rfl⟩

end IndentState
end Offside
