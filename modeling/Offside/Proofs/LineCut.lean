import Mathlib.Tactic.SplitIfs
import Offside.Layout.LineStart
import Offside.Proofs.ByteBoundary

/-!
# Cuts between lines

Two parts of a text meet between two lines when the first part is empty or ends
in a line break, and the cut does not part a carriage return from its line
feed.  The end of a text counts as well.

`startsLine_iff_exists_cut` says that the test on single bytes finds exactly
these places.  In particular no place that passes it lies inside a character.
-/

namespace Offside

/-- Two parts of a text that meet between two lines, or at the end of the text. -/
inductive LineCut : List Char → List Char → Prop
  | start (after : List Char) : LineCut [] after
  | stop (before : List Char) : LineCut before []
  | feed (before after : List Char) : LineCut (before ++ ['\n']) after
  | carriage
      (before after : List Char)
      (hfeed : after.head? ≠ some '\n') :
      LineCut (before ++ ['\r']) after

namespace LineCut

/-- More text before the first part does not change the place of a cut. -/
theorem append_left
    {before after : List Char}
    (h : LineCut before after)
    (hne : before ≠ [])
    (first : List Char) :
    LineCut (first ++ before) after := by
  cases h with
  | start => exact absurd rfl hne
  | stop => exact LineCut.stop _
  | feed before =>
      rw [← List.append_assoc]
      exact LineCut.feed _ _
  | carriage before _ hfeed =>
      rw [← List.append_assoc]
      exact LineCut.carriage _ _ hfeed

/-- A cut stays a cut when text is taken away from the front. -/
theorem of_append_left
    {first before after : List Char}
    (h : LineCut (first ++ before) after) :
    LineCut before after := by
  rcases List.eq_nil_or_concat before with rfl | ⟨before, c, rfl⟩
  · exact LineCut.start after
  · rw [List.concat_eq_append, ← List.append_assoc] at h
    rw [List.concat_eq_append]
    generalize hwhole : first ++ before ++ [c] = whole at h
    cases h with
    | start => simp at hwhole
    | stop => exact LineCut.stop _
    | feed =>
        rw [(List.append_inj' hwhole rfl).2]
        exact LineCut.feed _ _
    | carriage _ _ hfeed =>
        rw [(List.append_inj' hwhole rfl).2]
        exact LineCut.carriage _ _ hfeed

/-- Where text stands on both sides of a cut, the first part ends in a line
break, and in no half of one. -/
theorem concat_iff
    (before : List Char)
    {after : List Char}
    {c : Char}
    (hafter : after ≠ []) :
    LineCut (before ++ [c]) after ↔
      c = '\n' ∨ c = '\r' ∧ after.head? ≠ some '\n' := by
  constructor
  · intro h
    generalize hwhole : before ++ [c] = whole at h
    cases h with
    | start => simp at hwhole
    | stop => exact absurd rfl hafter
    | feed =>
        left
        simpa using (List.append_inj' hwhole rfl).2
    | carriage _ _ hfeed =>
        right
        exact ⟨by simpa using (List.append_inj' hwhole rfl).2, hfeed⟩
  · rintro (rfl | ⟨rfl, hfeed⟩)
    · exact LineCut.feed before after
    · exact LineCut.carriage before after hfeed

end LineCut

namespace Layout

/-- What the test on single bytes sees behind a character. -/
theorem getElem?_bytes_concat_iff
    {a : Char}
    {b : UInt8}
    (ha : a.utf8Size = 1)
    (hb : a.val.toUInt8 = b)
    (before after : List Char)
    (c : Char) :
    (Utf8.bytes (before ++ [c] ++ after))[Utf8.byteLength (before ++ [c]) - 1]? = some b ↔
      c = a := by
  have hpos : 0 < Utf8.byteLength (before ++ [c]) := Utf8.byteLength_pos (by simp)
  have hlast :
      (Utf8.bytes (before ++ [c] ++ after))[Utf8.byteLength (before ++ [c]) - 1]? =
        (Utf8.bytes (before ++ [c])).getLast? := by
    rw [Utf8.bytes_append, List.getElem?_append_left (by rw [Utf8.length_bytes]; omega),
      List.getLast?_eq_getElem?, Utf8.length_bytes]
  rw [hlast, ← hb, Utf8.getLast?_bytes_eq_iff ha, List.getLast?_concat, Option.some.injEq]

/-- What it sees before the text that follows. -/
theorem getElem?_bytes_append_iff
    (before after : List Char) :
    (Utf8.bytes (before ++ after))[Utf8.byteLength before]? = some 0x0A ↔
      after.head? = some '\n' := by
  rw [← List.head?_drop, Utf8.drop_bytes_append]
  exact Utf8.head?_bytes_eq_iff (c := '\n') rfl after

/-- The test on single bytes, at a place between two characters. -/
theorem startsLine_append_iff
    (before after : List Char) :
    startsLine (before ++ after) (Utf8.byteLength before) = true ↔ LineCut before after := by
  rcases List.eq_nil_or_concat before with rfl | ⟨before, c, rfl⟩
  · simp [startsLine, LineCut.start]
  rw [List.concat_eq_append]
  by_cases hafter : after = []
  · subst hafter
    have hend :
        Utf8.byteLength (before ++ [c]) = (Utf8.bytes (before ++ [c] ++ [])).length := by
      rw [List.append_nil, Utf8.length_bytes]
    simp [startsLine, hend, LineCut.stop]
  · have hpos : 0 < Utf8.byteLength (before ++ [c]) := Utf8.byteLength_pos (by simp)
    have hrest : 0 < Utf8.byteLength after := Utf8.byteLength_pos hafter
    have hlength :
        (Utf8.bytes (before ++ [c] ++ after)).length =
          Utf8.byteLength (before ++ [c]) + Utf8.byteLength after := by
      rw [Utf8.length_bytes, Utf8.byteLength_append]
    have hlf := getElem?_bytes_concat_iff (a := '\n') (b := 0x0A) rfl rfl before after c
    have hcr := getElem?_bytes_concat_iff (a := '\r') (b := 0x0D) rfl rfl before after c
    have hnext := getElem?_bytes_append_iff (before ++ [c]) after
    rw [LineCut.concat_iff _ hafter, startsLine, if_neg (by omega), if_neg (by omega)]
    by_cases hc : c = '\n'
    · rw [if_pos (hlf.2 hc)]
      simp [hc]
    · rw [if_neg fun h => hc (hlf.1 h)]
      by_cases hr : c = '\r'
      · rw [if_pos (hcr.2 hr)]
        rw [decide_eq_true_iff, Ne, hnext]
        simp [hr]
      · rw [if_neg fun h => hr (hcr.1 h)]
        simp [hc, hr]

/-- A byte position passes the test when it lies between two characters, and
there between two lines. -/
theorem startsLine_iff_exists_cut
    (source : List Char)
    (offset : Nat) :
    startsLine source offset = true ↔
      ∃ before after,
        source = before ++ after ∧
        Utf8.byteLength before = offset ∧
        LineCut before after := by
  constructor
  · intro h
    suffices hplace :
        ∃ before after, source = before ++ after ∧ Utf8.byteLength before = offset by
      obtain ⟨before, after, rfl, rfl⟩ := hplace
      exact ⟨before, after, rfl, rfl, (startsLine_append_iff before after).1 h⟩
    simp only [startsLine] at h
    split at h
    next hends =>
      rcases hends with rfl | rfl
      · exact ⟨[], source, rfl, rfl⟩
      · exact ⟨source, [], (List.append_nil source).symm, (Utf8.length_bytes source).symm⟩
    next hinside =>
      have hlow :
          ∃ b : UInt8,
            b.toNat < 128 ∧ (Utf8.bytes source)[offset - 1]? = some b := by
        split_ifs at h with hbehind hlf hcr
        · exact ⟨_, by decide, hlf⟩
        · exact ⟨_, by decide, hcr⟩
      obtain ⟨b, hb, hbyte⟩ := hlow
      obtain ⟨before, c, after, rfl, hbefore, hc, -⟩ :=
        Utf8.exists_char_of_low_byte hb hbyte
      refine ⟨before ++ [c], after, by simp, ?_⟩
      rw [Utf8.byteLength_append, Utf8.byteLength_cons, Utf8.byteLength_nil, hc, hbefore]
      omega
  · rintro ⟨before, after, rfl, rfl, hcut⟩
    exact (startsLine_append_iff before after).2 hcut

end Layout
end Offside
