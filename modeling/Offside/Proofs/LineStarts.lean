import Offside.Proofs.Resumption

/-!
# Where a scan finds the starts of lines

The test on single bytes looks at one byte or two and knows nothing of what stands
before them.  A scan comes to the start of a line by cutting all the text before it
into lexemes.  Both find the same places: the start of the source, and the places
at which a scan records its checkpoints (`LineStarts.startsLine_iff`).

These places ascend from the start of the source to its end, and none of them lies
inside a character.  A checkpoint is therefore accepted when it stands at one of
them and its bytes are as many as a written state can have, and the text behind it
can then be cut off (`accepts_iff_recorded`).
-/

namespace Offside
namespace Layout

/-- The byte positions of the checkpoints of a trace. -/
def Trace.offsets (trace : Trace) : List Nat :=
  trace.checkpoints.map Checkpoint.offset

namespace Cursor

/-- The last checkpoint of a walk is recorded where it stops. -/
theorem getLast?_checkpoints_walk
    (options : Options)
    (c : Cursor)
    {lines : List Line}
    (hne : lines ≠ []) :
    (c.walk options lines).checkpoints.getLast? =
      some (c.walk options lines).stop.checkpoint := by
  have hpos := List.length_pos_iff.2 hne
  have hlast : lines.length - 1 < (c.walk options lines).checkpoints.length := by
    rw [length_checkpoints_walk]
    omega
  obtain ⟨-, hcheckpoint⟩ := getElem?_checkpoints_walk (List.getElem?_eq_getElem hlast)
  have htake : lines.take (lines.length - 1 + 1) = lines :=
    List.take_of_length_le (by omega)
  rw [htake] at hcheckpoint
  rw [List.getLast?_eq_getElem?, length_checkpoints_walk, List.getElem?_eq_getElem hlast,
    hcheckpoint]

/-- Each line takes a walk further on. -/
theorem pairwise_offsets_walk
    (options : Options)
    (c : Cursor)
    {lines : List Line}
    (hlines : ∀ line ∈ lines, line.text ≠ []) :
    (c.offset :: (c.walk options lines).checkpoints.map Checkpoint.offset).Pairwise (· < ·) := by
  induction lines generalizing c with
  | nil => exact List.pairwise_singleton _ _
  | cons line lines ih =>
      have hpos := Utf8.byteLength_pos (hlines line List.mem_cons_self)
      have hrest :=
        ih (c.stepLine options line).2 fun later hlater =>
          hlines later (List.mem_cons_of_mem line hlater)
      have hstep :
          (c.stepLine options line).2.offset = c.offset + Utf8.byteLength line.text := rfl
      refine List.pairwise_cons.2 ⟨?_, hrest⟩
      intro offset hoffset
      rcases List.mem_cons.1 hoffset with rfl | hoffset
      · show c.offset < (c.stepLine options line).2.offset
        omega
      · have hlt := (List.pairwise_cons.1 hrest).1 offset hoffset
        omega

end Cursor

/-- The checkpoints of a trace stand at the starts of the lines of a source, from the
second line on, and at its end. -/
structure LineStarts
    (source : List Char)
    (trace : Trace) :
    Prop where
  startsLine_iff : ∀ offset,
    startsLine source offset = true ↔ offset = 0 ∨ offset ∈ trace.offsets
  increasing : (0 :: trace.offsets).Pairwise (· < ·)
  last : source ≠ [] → trace.offsets.getLast? = some (Utf8.byteLength source)
  /-- No position lies inside a character. -/
  boundary : ∀ offset ∈ trace.offsets,
    ∃ before after, source = before ++ after ∧ Utf8.byteLength before = offset

variable {options : Options} {source : List Char} {full : Trace}

/-- A checkpoint is recorded between two lines of the source. -/
theorem exists_cut_of_mem_offsets
    (htab : options.tabWidth ≠ 0)
    (hfull : traceOf source options = .ok full)
    {offset : Nat}
    (hoffset : offset ∈ full.offsets) :
    ∃ before after,
      source = before ++ after ∧
      Utf8.byteLength before = offset ∧
      LineCut before after := by
  rw [traceOf_eq htab, Except.ok.injEq] at hfull
  subst hfull
  obtain ⟨checkpoint, hcheckpoint, rfl⟩ := List.mem_map.1 hoffset
  obtain ⟨index, hindex⟩ := List.getElem?_of_mem hcheckpoint
  obtain ⟨front, back, htext, -, hcut, -, -, hplace, -⟩ := exists_place_of_checkpoint hindex
  exact ⟨front, back, htext, by rw [hplace]; exact (Nat.zero_add _).symm, hcut⟩

/-- Between two lines of the source a checkpoint is recorded. -/
theorem mem_offsets_of_lineCut
    (htab : options.tabWidth ≠ 0)
    {before after : List Char}
    (hfull : traceOf (before ++ after) options = .ok full)
    (hne : before ≠ [])
    (hcut : LineCut before after) :
    Utf8.byteLength before ∈ full.offsets := by
  rw [traceOf_eq htab, Except.ok.injEq] at hfull
  subst hfull
  have hlines : Line.ofSource before ≠ [] := fun h => hne (Line.eq_nil_of_ofSource_eq_nil h)
  have hlast := Cursor.getLast?_checkpoints_walk options Cursor.start hlines
  have hoffset :
      (Cursor.start.walk options (Line.ofSource before)).stop.checkpoint.offset =
        Utf8.byteLength before := by
    show (Cursor.walk _ _ _).stop.offset = _
    rw [Cursor.offset_stop_walk, Line.flatMap_text_ofSource]
    exact Nat.zero_add _
  rw [Trace.offsets, Line.ofSource_append hcut, Cursor.traceLines_append, List.map_append,
    ← hoffset]
  exact List.mem_append_left _ (List.mem_map_of_mem (List.mem_of_getLast? hlast))

/-- A scan records its checkpoints at the starts of lines and at the end. -/
theorem lineStarts_of_traceOf
    (htab : options.tabWidth ≠ 0)
    (hfull : traceOf source options = .ok full) :
    LineStarts source full := by
  refine ⟨?_, ?_, ?_, ?_⟩
  · intro offset
    rw [startsLine_iff_exists_cut]
    constructor
    · rintro ⟨before, after, rfl, rfl, hcut⟩
      by_cases hne : before = []
      · left
        rw [hne, Utf8.byteLength_nil]
      · right
        exact mem_offsets_of_lineCut htab hfull hne hcut
    · rintro (rfl | hoffset)
      · exact ⟨[], source, rfl, rfl, LineCut.start source⟩
      · exact exists_cut_of_mem_offsets htab hfull hoffset
  · rw [traceOf_eq htab, Except.ok.injEq] at hfull
    subst hfull
    exact Cursor.pairwise_offsets_walk options Cursor.start
      fun line hline => Line.text_ne_nil_of_mem_ofSource hline
  · intro hne
    rw [traceOf_eq htab, Except.ok.injEq] at hfull
    subst hfull
    have hlines : Line.ofSource source ≠ [] := fun h => hne (Line.eq_nil_of_ofSource_eq_nil h)
    rw [Trace.offsets, Cursor.traceLines, List.getLast?_map,
      Cursor.getLast?_checkpoints_walk options Cursor.start hlines, Option.map_some]
    show some (Cursor.walk _ _ _).stop.offset = _
    rw [Cursor.offset_stop_walk, Line.flatMap_text_ofSource]
    exact congrArg some (Nat.zero_add _)
  · intro offset hoffset
    obtain ⟨before, after, htext, hplace, -⟩ := exists_cut_of_mem_offsets htab hfull hoffset
    exact ⟨before, after, htext, hplace⟩

/-- The test on single bytes and the scan of a source agree on where its lines start,
at every byte position.  A checkpoint is accepted with any options that have a tab
width when it stands at the start of the source or where one was recorded and its
bytes are as many as a written state can have, whatever its line and its count of
events are.  Behind an accepted checkpoint the text can be cut off. -/
theorem accepts_iff_recorded
    (htab : options.tabWidth ≠ 0)
    (source : List Char) :
    ∃ full,
      traceOf source options = .ok full ∧
      LineStarts source full ∧
      ∀ (again : Options) (checkpoint : Checkpoint),
        ((∃ scan, Scan.ofCheckpoint source again checkpoint = .ok scan) ↔
          again.tabWidth ≠ 0 ∧
          (checkpoint.offset = 0 ∨ checkpoint.offset ∈ full.offsets) ∧
          IndentState.IsFormLength checkpoint.state.length) ∧
        ∀ scan,
          Scan.ofCheckpoint source again checkpoint = .ok scan →
          Utf8.dropBytes? checkpoint.offset source = some scan.rest := by
  have hfull := traceOf_eq htab source
  have hstarts := lineStarts_of_traceOf htab hfull
  refine ⟨_, hfull, hstarts, fun again checkpoint => ⟨?_, ?_⟩⟩
  · rw [← hstarts.startsLine_iff, ← IndentState.exists_decode_iff]
    constructor
    · rintro ⟨scan, hscan⟩
      obtain ⟨hagain, hstart, state, hdecode, -⟩ := Scan.ofCheckpoint_eq_ok_iff.1 hscan
      exact ⟨hagain, hstart, state, hdecode⟩
    · rintro ⟨hagain, hstart, state, hdecode⟩
      exact ⟨_, Scan.ofCheckpoint_eq_ok_iff.2 ⟨hagain, hstart, state, hdecode, rfl⟩⟩
  · intro scan hscan
    obtain ⟨-, hstart, state, -, rfl⟩ := Scan.ofCheckpoint_eq_ok_iff.1 hscan
    obtain ⟨before, after, rfl, hoffset, -⟩ := (startsLine_iff_exists_cut _ _).1 hstart
    have hdrop : Utf8.dropBytes? checkpoint.offset (before ++ after) = some after := by
      rw [← hoffset, Utf8.dropBytes?_append]
    show _ = some ((Utf8.dropBytes? checkpoint.offset (before ++ after)).getD [])
    rw [hdrop]
    rfl

/-- Characters of two bytes in a word and in a comment, and a place that parts a
carriage return from its line feed. -/
theorem accepts_iff_recorded_multibyte :
    ∃ full,
      traceOf "né\r\nx // é\ry".toList {} = .ok full ∧
      full.offsets = [5, 13, 14] ∧
      LineStarts "né\r\nx // é\ry".toList full ∧
      (∃ scan, Scan.ofCheckpoint "né\r\nx // é\ry".toList ⟨1, false⟩ ⟨7, 13, 99, []⟩ = .ok scan) ∧
      ¬ ∃ scan, Scan.ofCheckpoint "né\r\nx // é\ry".toList {} ⟨0, 4, 0, []⟩ = .ok scan := by
  obtain ⟨full, hfull, hstarts, haccepts⟩ :=
    @accepts_iff_recorded {} (by decide) "né\r\nx // é\ry".toList
  have hrecorded :
      (traceOf "né\r\nx // é\ry".toList {}).map Trace.offsets = .ok [5, 13, 14] := by
    decide +kernel
  rw [hfull] at hrecorded
  have hoffsets : full.offsets = [5, 13, 14] := Except.ok.inj hrecorded
  refine ⟨full, hfull, hoffsets, hstarts, ?_, ?_⟩
  · rw [(haccepts ⟨1, false⟩ ⟨7, 13, 99, []⟩).1, hoffsets]
    exact ⟨by decide, by decide, .inl rfl⟩
  · rw [(haccepts {} ⟨0, 4, 0, []⟩).1, hoffsets]
    rintro ⟨-, hoffset, -⟩
    exact absurd hoffset (by decide)

end Layout
end Offside
