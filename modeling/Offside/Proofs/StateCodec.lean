import Offside.IndentState.Codec
import Offside.Proofs.StateView

/-!
# Reading a written state

The written form keeps all that can be seen of a state: states that look alike
are written alike, and what is read back looks like what was written.  The
initial state is no exception, although it is written as no bytes at all.

Bytes that were read are written again as they were, unless their fields spell
the initial state.  The two directions together make reading and writing inverse
to each other up to that one spelling (`decode_encode_inverse`).
-/

namespace Offside
namespace IndentState

theorem view_initial : initial.view = ⟨[], unmeasured, 0, unmeasured⟩ := rfl

theorem view_reset (s : IndentState) : s.reset.view = initial.view := by
  rw [view_initial, view, levels_reset]
  rfl

/-- The empty written form stands for what looks like the initial state. -/
theorem isInitial_iff (s : IndentState) : s.isInitial = true ↔ s.view = initial.view := by
  have hlevels : s.levels = [] ↔ s.depth = 0 := by
    rw [← List.length_eq_zero_iff, levels_length]
  rw [view_initial, StateView.ext_iff]
  simp [isInitial, hlevels, and_assoc]

/-- States that look alike are written alike. -/
theorem encode_eq_of_view_eq
    {s t : IndentState}
    (h : s.view = t.view) :
    s.encode = t.encode := by
  have hinitial : s.isInitial = t.isInitial := by
    rw [Bool.eq_iff_iff, isInitial_iff, isInitial_iff, h]
  have hfields : s.fields = t.fields := by
    have hfields' := congrArg
      (fun v : StateView =>
        v.levels ++ [v.lastWidth.toUInt32, v.blankRun.toUInt32, v.lastColumn.toUInt32]) h
    exact hfields'
  rw [encode, encode, hinitial, hfields]

/-- The length of a written form tells the number of levels. -/
theorem depthOfLength_of_le
    {depth : Nat}
    (h : depth ≤ maxDepth) :
    depthOfLength ((depth + trailerFields) * wordBytes) = .ok ⟨depth, Nat.lt_succ_of_le h⟩ := by
  have hdiv : (depth + trailerFields) * wordBytes / wordBytes = depth + trailerFields :=
    Nat.mul_div_cancel _ (by decide)
  have hmod : (depth + trailerFields) * wordBytes % wordBytes = 0 := Nat.mul_mod_left _ _
  have hlt : depth + trailerFields - trailerFields < maxDepth + 1 := by omega
  rw [depthOfLength, hdiv, hmod, if_neg (by simp), if_neg (by omega), dif_pos hlt]
  simp

/-- Only the length of that many levels and the three numbers is taken for a depth. -/
theorem length_of_depthOfLength
    {length : Nat}
    {depth : Fin (maxDepth + 1)}
    (h : depthOfLength length = .ok depth) :
    length = (depth + trailerFields) * wordBytes := by
  unfold depthOfLength at h
  split_ifs at h with hragged hshort hfits
  cases h
  have hdiv := Nat.div_add_mod' length wordBytes
  have hfields :
      length / wordBytes - trailerFields + trailerFields = length / wordBytes := by
    omega
  dsimp only
  rw [hfields]
  omega

/-- The lengths that a written form can have. -/
def IsFormLength (length : Nat) : Prop :=
  length = 0 ∨ ∃ depth ≤ maxDepth, length = (depth + trailerFields) * wordBytes

/-- Bytes are read when they are as many as a written form can have, whatever they are. -/
theorem exists_decode_iff {bytes : List UInt8} :
    (∃ s, decode bytes = .ok s) ↔ IsFormLength bytes.length := by
  by_cases hnil : bytes = []
  · subst hnil
    exact ⟨fun _ => .inl rfl, fun _ => ⟨initial, rfl⟩⟩
  have hpos : 0 < bytes.length := List.length_pos_iff.2 hnil
  have hdecode :
      decode bytes =
        (depthOfLength bytes.length).map fun depth =>
          ofFields depth (LittleEndian.words bytes) := by
    rw [decode, if_neg (by simpa using hnil)]
  rw [hdecode, IsFormLength, or_iff_right (Nat.ne_of_gt hpos)]
  constructor
  · rintro ⟨s, hs⟩
    cases hdepth : depthOfLength bytes.length with
    | error e =>
        rw [hdepth] at hs
        cases hs
    | ok depth =>
        exact ⟨depth, Nat.le_of_lt_succ depth.isLt, length_of_depthOfLength hdepth⟩
  · rintro ⟨depth, hle, hlength⟩
    rw [hlength, depthOfLength_of_le hle]
    exact ⟨_, rfl⟩

/-- A row of slots starts with the widths that it is made of. -/
theorem take_slotsOf
    {widths : List UInt32}
    (h : widths.length ≤ maxDepth) :
    (slotsOf widths).toList.take widths.length = widths := by
  apply List.ext_getElem
  · simp [h]
  · intro i hi hi'
    simp [slotsOf, List.getElem?_eq_getElem hi']

/-- What can be seen of a state that is made of its fields. -/
theorem view_ofFields
    (v : StateView)
    (depth : Fin (maxDepth + 1))
    (h : v.levels.length = depth) :
    (ofFields depth
      (v.levels ++ [v.lastWidth.toUInt32, v.blankRun.toUInt32, v.lastColumn.toUInt32])).view =
      v := by
  have hle : v.levels.length ≤ maxDepth := by omega
  apply StateView.ext
  · show (slotsOf _).toList.take depth.val = v.levels
    rw [← h, List.take_left', take_slotsOf hle]
    rfl
  · show UInt32.toInt32 _ = v.lastWidth
    simp [← h]
  · show UInt32.toInt32 _ = v.blankRun
    simp [← h]
  · show UInt32.toInt32 _ = v.lastColumn
    simp [← h]

/-- What was written is read back, and looks the same. -/
theorem exists_decode_encode (s : IndentState) :
    ∃ t, decode s.encode = .ok t ∧ t.view = s.view := by
  by_cases hinitial : s.isInitial = true
  · refine ⟨initial, ?_, ((isInitial_iff s).1 hinitial).symm⟩
    rw [encode, if_pos hinitial]
    rfl
  · have hlength : s.encode.length = (s.depth + trailerFields) * wordBytes := by
      rw [encode_length, encodedLength, if_neg hinitial]
    have hne : s.encode.isEmpty = false := by
      rw [List.isEmpty_eq_false_iff, ← List.length_pos_iff, hlength]
      exact Nat.mul_pos (Nat.add_pos_right _ (by decide)) (by decide)
    refine ⟨_, ?_, view_ofFields s.view ⟨s.depth, Nat.lt_succ_of_le s.depth_le⟩ (levels_length s)⟩
    rw [decode, hne, hlength, depthOfLength_of_le s.depth_le, encode, if_neg hinitial,
      LittleEndian.words_flatMap_bytes]
    rfl

/-- States that are written alike look alike. -/
theorem view_eq_of_encode_eq
    {s t : IndentState}
    (h : s.encode = t.encode) :
    s.view = t.view := by
  obtain ⟨u, hu, hus⟩ := exists_decode_encode s
  obtain ⟨v, hv, hvt⟩ := exists_decode_encode t
  rw [h, hv, Except.ok.injEq] at hu
  rw [← hus, ← hu, hvt]

/-- The levels of a state that is made of fields are the first of them. -/
theorem levels_ofFields
    {depth : Fin (maxDepth + 1)}
    {words : List UInt32}
    (h : depth ≤ words.length) :
    (ofFields depth words).levels = words.take depth := by
  have htake : (words.take depth).length = depth := by
    rw [List.length_take]
    exact Nat.min_eq_left h
  have hslots := @take_slotsOf (words.take depth) (by omega)
  rwa [htake] at hslots

/-- A state that is made of fields has these fields. -/
theorem fields_ofFields
    {depth : Fin (maxDepth + 1)}
    {words : List UInt32}
    (h : words.length = depth + trailerFields) :
    (ofFields depth words).fields = words := by
  have hlevels := @levels_ofFields depth words (by omega)
  obtain ⟨a, b, c, htrailer⟩ : ∃ a b c, words.drop depth = [a, b, c] := by
    rw [← List.length_eq_three, List.length_drop, h]
    exact Nat.add_sub_cancel_left ..
  have hword (i : Nat) : words[depth.val + i]? = [a, b, c][i]? := by
    rw [← htrailer, List.getElem?_drop]
  rw [fields, hlevels]
  conv_rhs => rw [← List.take_append_drop depth.val words, htrailer]
  simp [ofFields, hword 1, hword 2, show words[depth.val]? = some a from hword 0]

/-- What is read from bytes that are not empty are the fields that they spell. -/
theorem flatMap_bytes_fields_of_decode
    {bytes : List UInt8}
    {s : IndentState}
    (hne : bytes ≠ [])
    (h : decode bytes = .ok s) :
    s.fields.flatMap LittleEndian.bytes = bytes := by
  have hempty : ¬ bytes.isEmpty = true := by simpa using hne
  rw [decode, if_neg hempty] at h
  cases hdepth : depthOfLength bytes.length with
  | error e =>
      rw [hdepth] at h
      cases h
  | ok depth =>
      rw [hdepth, Except.map, Except.ok.injEq] at h
      subst h
      have hlength := length_of_depthOfLength hdepth
      rw [fields_ofFields, LittleEndian.flatMap_bytes_words]
      · rw [hlength]
        exact Nat.mul_mod_left _ _
      · rw [LittleEndian.words_length, hlength]
        exact Nat.mul_div_cancel _ (by decide)

/-- The fields of the initial state, which are never written. -/
def spelledInitial : List UInt8 := [255, 255, 255, 255, 0, 0, 0, 0, 255, 255, 255, 255]

/-- Only the initial state has the fields of the initial state. -/
theorem flatMap_bytes_fields_of_isInitial
    {s : IndentState}
    (h : s.isInitial = true) :
    s.fields.flatMap LittleEndian.bytes = spelledInitial := by
  have hview := (isInitial_iff s).1 h
  have hfields : s.fields = initial.fields :=
    congrArg
      (fun v : StateView =>
        v.levels ++ [v.lastWidth.toUInt32, v.blankRun.toUInt32, v.lastColumn.toUInt32]) hview
  rw [hfields]
  decide

/-- Bytes that were read are written again as they were, but for one run of them. -/
theorem encode_of_decode
    {bytes : List UInt8}
    {s : IndentState}
    (h : decode bytes = .ok s)
    (hspelled : bytes ≠ spelledInitial) :
    s.encode = bytes := by
  by_cases hnil : bytes = []
  · subst hnil
    cases h
    rfl
  · have hfields := flatMap_bytes_fields_of_decode hnil h
    have hinitial : s.isInitial ≠ true := by
      intro hinitial
      rw [flatMap_bytes_fields_of_isInitial hinitial] at hfields
      exact hspelled hfields.symm
    rw [encode, if_neg hinitial, hfields]

/-- Reading and writing are inverse to each other.  Whatever its levels and
numbers are, a state is read back from its written form, and two states have one
written form exactly when they are equal.  Bytes that spell a state are the
written form of that state, with one exception: the fields of the initial state
are read as that state, which is written as no bytes at all. -/
theorem decode_encode_inverse :
    (∀ s : IndentState, ∃ t, decode s.encode = .ok t ∧ (t == s) = true) ∧
    (∀ s t : IndentState, s.encode = t.encode ↔ (s == t) = true) ∧
    (∀ (bytes : List UInt8) (s : IndentState),
      decode bytes = .ok s → (s.encode = bytes ↔ bytes ≠ spelledInitial)) ∧
    ∃ s, decode spelledInitial = .ok s ∧ (s == initial) = true ∧ s.encode = [] := by
  have hspelled : ∃ s, decode spelledInitial = .ok s ∧ (s == initial) = true ∧ s.encode = [] :=
    ⟨_, rfl, by decide +kernel, by decide +kernel⟩
  refine ⟨?_, ?_, ?_, hspelled⟩
  · intro s
    obtain ⟨t, ht, hview⟩ := exists_decode_encode s
    exact ⟨t, ht, (beq_iff_view_eq t s).2 hview⟩
  · intro s t
    rw [beq_iff_view_eq]
    exact ⟨view_eq_of_encode_eq, encode_eq_of_view_eq⟩
  · intro bytes s h
    refine ⟨?_, encode_of_decode h⟩
    rintro hbytes rfl
    obtain ⟨t, ht, -, hnil⟩ := hspelled
    rw [h, Except.ok.injEq] at ht
    rw [ht, hnil] at hbytes
    cases hbytes

/-- Levels that narrow and numbers at both ends of their range. -/
theorem decode_encode_inverse_descending :
    ∃ s,
      decode
          [4, 0, 0, 0, 2, 0, 0, 0, 0, 0, 0, 128, 255, 255, 255, 255, 255, 255, 255, 127] = .ok s ∧
      s.levels = [4, 2] ∧
      s.encode =
        [4, 0, 0, 0, 2, 0, 0, 0, 0, 0, 0, 128, 255, 255, 255, 255, 255, 255, 255, 127] := by
  obtain ⟨-, -, hwritten, -⟩ := decode_encode_inverse
  exact ⟨_, rfl, by decide +kernel, (hwritten _ _ rfl).2 (by decide)⟩

end IndentState
end Offside
