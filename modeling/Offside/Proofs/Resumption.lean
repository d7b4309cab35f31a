import Offside.Layout.Session
import Offside.Proofs.LineSplit
import Offside.Proofs.Translation

/-!
# Taking a scan up at a checkpoint

A checkpoint holds three counters and the bytes of a state, and nothing of the
text before it.  A scan that is taken up there goes on as if it had come all the
way, for three reasons that meet here: the text behind a line break reads alone
as it reads in the whole, the test on single bytes accepts exactly the places
between lines, and the bytes of a state give back all that can be seen of it.

The main results are about a source that was edited behind a checkpoint, about
two sources that share nothing but what follows, and about checkpoints of a scan
that was itself taken up anywhere.  The first rests on `resume_or_refuse`, which
says the same of one checkpoint and one edited source in the terms of a session.
-/

namespace Offside
namespace Layout

namespace Scan

/-- A checkpoint is accepted when a line starts there and its bytes spell a state. -/
theorem ofCheckpoint_eq_ok_iff
    {source : List Char}
    {options : Options}
    {checkpoint : Checkpoint}
    {scan : Scan} :
    ofCheckpoint source options checkpoint = .ok scan ↔
      options.tabWidth ≠ 0 ∧
      startsLine source checkpoint.offset = true ∧
      ∃ state,
        IndentState.decode checkpoint.state = .ok state ∧
        scan = ⟨source, options, Cursor.ofCheckpoint checkpoint state⟩ := by
  unfold ofCheckpoint
  constructor
  · intro h
    split_ifs at h with htab hstart
    cases hdecode : IndentState.decode checkpoint.state with
    | error cause =>
        rw [hdecode] at h
        cases h
    | ok state =>
        rw [hdecode] at h
        cases h
        exact ⟨htab, by simpa using hstart, state, rfl, rfl⟩
  · rintro ⟨htab, hstart, state, hdecode, rfl⟩
    rw [if_neg htab, if_neg (by rw [hstart]; simp), hdecode]

/-- An accepted checkpoint cuts its source between two lines, and the scan goes
over the lines behind the cut. -/
theorem exists_cut_of_ofCheckpoint
    {source : List Char}
    {options : Options}
    {checkpoint : Checkpoint}
    {scan : Scan}
    (h : ofCheckpoint source options checkpoint = .ok scan) :
    ∃ before after state,
      source = before ++ after ∧
      Utf8.byteLength before = checkpoint.offset ∧
      LineCut before after ∧
      IndentState.decode checkpoint.state = .ok state ∧
      scan.trace =
        (Cursor.ofCheckpoint checkpoint state).traceLines options (Line.ofSource after) := by
  obtain ⟨-, hstart, state, hdecode, rfl⟩ := ofCheckpoint_eq_ok_iff.1 h
  obtain ⟨before, after, rfl, hoffset, hcut⟩ := (startsLine_iff_exists_cut _ _).1 hstart
  exact ⟨before, after, state, rfl, hoffset, hcut, hdecode, trace_eq_traceLines rfl hoffset.symm⟩

/-- A checkpoint that was recorded at a place between two lines is accepted, and
the scan goes on from that place. -/
theorem exists_ofCheckpoint_checkpoint
    {options : Options}
    (htab : options.tabWidth ≠ 0)
    {c : Cursor}
    {before after : List Char}
    (hoffset : c.offset = Utf8.byteLength before)
    (hcut : LineCut before after) :
    ∃ scan,
      ofCheckpoint (before ++ after) options c.checkpoint = .ok scan ∧
      scan.trace = c.traceLines options (Line.ofSource after) := by
  have hstart : startsLine (before ++ after) c.checkpoint.offset = true :=
    (startsLine_iff_exists_cut _ _).2 ⟨before, after, rfl, hoffset.symm, hcut⟩
  obtain ⟨state, hdecode, hview⟩ := IndentState.exists_decode_encode c.state
  refine ⟨_, ofCheckpoint_eq_ok_iff.2 ⟨htab, hstart, state, hdecode, rfl⟩, ?_⟩
  rw [trace_eq_traceLines rfl hoffset]
  exact Cursor.traceLines_of_view_eq hview options (Line.ofSource after)

end Scan

/-- A whole source is scanned line by line from its start. -/
theorem traceOf_eq
    {options : Options}
    (htab : options.tabWidth ≠ 0)
    (source : List Char) :
    traceOf source options =
      .ok (Cursor.start.traceLines options (Line.ofSource source)) := by
  have htrace :
      Scan.trace ⟨source, options, Cursor.start⟩ =
        Cursor.start.traceLines options (Line.ofSource source) :=
    Scan.trace_eq_traceLines (List.nil_append source).symm rfl
  rw [traceOf, Scan.ofSource, if_neg htab, ← htrace]
  rfl

/-- Where a checkpoint of a scan was recorded: behind the first lines of the text
that the scan went over. -/
theorem exists_place_of_checkpoint
    {options : Options}
    {c : Cursor}
    {text : List Char}
    {index : Nat}
    {checkpoint : Checkpoint}
    (h : (c.traceLines options (Line.ofSource text)).checkpoints[index]? = some checkpoint) :
    ∃ front back,
      text = front ++ back ∧
      front ≠ [] ∧
      LineCut front back ∧
      (Line.ofSource front).length = index + 1 ∧
      checkpoint = (c.walk options (Line.ofSource front)).stop.checkpoint ∧
      checkpoint.offset = c.offset + Utf8.byteLength front ∧
      checkpoint.emitted = c.emitted + (c.walk options (Line.ofSource front)).events.length := by
  obtain ⟨hlt, hcheckpoint⟩ := Cursor.getElem?_checkpoints_walk h
  have hlines := (List.take_append_drop (index + 1) (Line.ofSource text)).symm
  obtain ⟨hcut, hfront, -⟩ := Line.split_ofSource hlines
  have htext := Line.flatMap_text_ofSource text
  rw [hlines, List.flatMap_append] at htext
  have hlength : (Line.ofSource
      ((List.take (index + 1) (Line.ofSource text)).flatMap Line.text)).length = index + 1 := by
    rw [hfront, List.length_take, Nat.min_eq_left hlt]
  refine ⟨_, _, htext.symm, ?_, hcut, hlength, ?_, ?_, ?_⟩
  · intro hnil
    rw [hnil, Line.ofSource_nil] at hlength
    cases hlength
  · rw [hfront, hcheckpoint]
  · rw [hcheckpoint]
    exact Cursor.offset_stop_walk options c _
  · rw [hcheckpoint, hfront]
    exact Cursor.emitted_stop_walk options c _

/-- A byte position inside a source that no line starts at: what stands before it
does not end in a line break, or it parts a carriage return from its line feed. -/
def InsideLine
    (source : List Char)
    (offset : Nat) :
    Prop :=
  let before := (Utf8.bytes source).take offset
  offset < (Utf8.bytes source).length ∧
    (before.getLast? ≠ some 0x0A ∧ before.getLast? ≠ some 0x0D ∨
      before.getLast? = some 0x0D ∧ (Utf8.bytes source)[offset]? = some 0x0A)

instance (source : List Char) (offset : Nat) : Decidable (InsideLine source offset) :=
  inferInstanceAs (Decidable (_ ∧ (_ ∧ _ ∨ _ ∧ _)))

/-- Behind some text a position is inside a line when there is no cut. -/
theorem insideLine_append_iff
    {before after : List Char}
    (hne : before ≠ []) :
    InsideLine (before ++ after) (Utf8.byteLength before) ↔ ¬ LineCut before after := by
  obtain ⟨inner, c, rfl⟩ := (List.eq_nil_or_concat before).resolve_left hne
  rw [List.concat_eq_append]
  have hlf : (Utf8.bytes (inner ++ [c])).getLast? = some 0x0A ↔ c = '\n' := by
    have h := Utf8.getLast?_bytes_eq_iff (c := '\n') rfl (inner ++ [c])
    rwa [List.getLast?_concat, Option.some.injEq] at h
  have hcr : (Utf8.bytes (inner ++ [c])).getLast? = some 0x0D ↔ c = '\r' := by
    have h := Utf8.getLast?_bytes_eq_iff (c := '\r') rfl (inner ++ [c])
    rwa [List.getLast?_concat, Option.some.injEq] at h
  have hlength :
      Utf8.byteLength (inner ++ [c]) < (Utf8.bytes (inner ++ [c] ++ after)).length ↔
        after ≠ [] := by
    rw [Utf8.length_bytes, Utf8.byteLength_append (inner ++ [c]), Ne,
      ← Utf8.byteLength_eq_zero_iff]
    omega
  simp only [InsideLine, Utf8.take_bytes_append, hlength, getElem?_bytes_append_iff, ne_eq, hlf,
    hcr]
  by_cases hafter : after = []
  · simp [hafter, LineCut.stop]
  · rw [LineCut.concat_iff inner hafter]
    by_cases hn : c = '\n'
    · simp [hn]
    · simp [hn, hafter]
      tauto

/-- What a recorded checkpoint says about an edited source that starts as the
scanned one does up to it.  Either it is refused, or the scan that is taken up
there ends a scan of the edited source, whose beginning is held already. -/
theorem resume_or_refuse
    {options : Options}
    (htab : options.tabWidth ≠ 0)
    {source edited : List Char}
    {full : Trace}
    {index : Nat}
    {checkpoint : Checkpoint}
    (hfull : traceOf source options = .ok full)
    (hcheckpoint : full.checkpoints[index]? = some checkpoint)
    (hagree :
      (Utf8.bytes edited).take checkpoint.offset = (Utf8.bytes source).take checkpoint.offset) :
    (InsideLine edited checkpoint.offset ∧
      Scan.ofCheckpoint edited options checkpoint =
        .error (.notLineStart checkpoint.offset (Utf8.byteLength edited))) ∨
    (¬ InsideLine edited checkpoint.offset ∧
      ∃ scan,
        Scan.ofCheckpoint edited options checkpoint = .ok scan ∧
        checkpoint.emitted ≤ full.events.length ∧
        traceOf edited options =
          .ok (Session.splice full index checkpoint scan.trace)) := by
  rw [traceOf_eq htab, Except.ok.injEq] at hfull
  subst hfull
  obtain ⟨front, back, rfl, hne, hcut, hlength, hstop, hoffset, hemitted⟩ :=
    exists_place_of_checkpoint hcheckpoint
  have hfrontBytes : checkpoint.offset = Utf8.byteLength front := by
    rw [hoffset]
    exact Nat.zero_add _
  rw [hfrontBytes, Utf8.take_bytes_append] at hagree
  obtain ⟨rest, rfl⟩ := Utf8.exists_append_of_take_bytes hagree
  rw [hfrontBytes, insideLine_append_iff hne]
  by_cases hrest : LineCut front rest
  · right
    refine ⟨not_not_intro hrest, ?_⟩
    have hstopOffset :
        (Cursor.start.walk options (Line.ofSource front)).stop.offset =
          Utf8.byteLength front := by
      rw [← hfrontBytes, hstop]
      rfl
    obtain ⟨scan, hscan, htrace⟩ := Scan.exists_ofCheckpoint_checkpoint htab hstopOffset hrest
    rw [← hstop] at hscan
    have hevents :
        checkpoint.emitted = (Cursor.start.walk options (Line.ofSource front)).events.length := by
      rw [hemitted]
      exact Nat.zero_add _
    have hcheckpoints :
        index + 1 = (Cursor.start.walk options (Line.ofSource front)).checkpoints.length := by
      rw [Cursor.length_checkpoints_walk, hlength]
    rw [traceOf_eq htab, Line.ofSource_append hcut, Line.ofSource_append hrest,
      Cursor.traceLines_append, Cursor.traceLines_append]
    refine ⟨scan, hscan, ?_, ?_⟩
    · simp [hevents]
    · simp [Session.splice, hevents, hcheckpoints, htrace]
  · left
    refine ⟨hrest, ?_⟩
    have hstart : startsLine (front ++ rest) checkpoint.offset = false := by
      rw [hfrontBytes, ← Bool.not_eq_true, startsLine_append_iff]
      exact hrest
    rw [Scan.ofCheckpoint, if_neg htab, if_pos hstart, hfrontBytes]

/-- Every checkpoint of a scan can be used on every source that starts as the
scanned one does up to it.  It is refused where no line of the edited source
starts, and for no other reason.  Elsewhere the edited source has the same events
and checkpoints up to there, and the scan that is taken up gives all the others. -/
theorem resume_after_edit
    {options : Options}
    (htab : options.tabWidth ≠ 0)
    (source : List Char) :
    ∃ full,
      traceOf source options = .ok full ∧
      ∀ (index : Nat) (checkpoint : Checkpoint),
        full.checkpoints[index]? = some checkpoint →
        ∀ edited : List Char,
          (Utf8.bytes edited).take checkpoint.offset =
            (Utf8.bytes source).take checkpoint.offset →
          (∀ cause,
            Scan.ofCheckpoint edited options checkpoint = .error cause ↔
              InsideLine edited checkpoint.offset ∧
              cause = .notLineStart checkpoint.offset (Utf8.byteLength edited)) ∧
          (¬ InsideLine edited checkpoint.offset →
            ∃ scan again,
              Scan.ofCheckpoint edited options checkpoint = .ok scan ∧
              traceOf edited options = .ok again ∧
              again.checkpoints.take (index + 1) = full.checkpoints.take (index + 1) ∧
              again.events.take checkpoint.emitted = full.events.take checkpoint.emitted ∧
              checkpoint.emitted ≤ again.events.length ∧
              scan.trace.events = again.events.drop checkpoint.emitted ∧
              scan.trace.checkpoints = again.checkpoints.drop (index + 1)) := by
  refine ⟨_, traceOf_eq htab source, ?_⟩
  intro index checkpoint hcheckpoint edited hagree
  obtain ⟨hindex, -⟩ := List.getElem?_eq_some_iff.1 hcheckpoint
  rcases resume_or_refuse htab (traceOf_eq htab source) hcheckpoint hagree with
    ⟨hinside, hrefused⟩ | ⟨hinside, scan, hscan, hemitted, hagain⟩
  · refine ⟨?_, fun h => absurd hinside h⟩
    intro cause
    rw [hrefused, Except.error.injEq]
    constructor
    · intro h
      exact ⟨hinside, h.symm⟩
    · intro h
      exact h.2.symm
  · refine ⟨?_, ?_⟩
    · intro cause
      constructor
      · intro h
        rw [hscan] at h
        cases h
      · intro h
        exact absurd h.1 hinside
    · intro _
      refine ⟨scan, _, hscan, hagain, ?_⟩
      simp [Session.splice, Nat.min_eq_left hemitted, Nat.min_eq_left hindex]

/-- The kept text ends in a carriage return: with a line feed behind it the
checkpoint is refused, and with a deeper line it is not. -/
theorem resume_after_edit_behind_carriage_return :
    ∃ checkpoint : Checkpoint,
      checkpoint = ⟨2, 6, 1, [2, 0, 0, 0, 2, 0, 0, 0, 0, 0, 0, 0, 2, 0, 0, 0]⟩ ∧
      Scan.ofCheckpoint "a\n  b\r\nc".toList {} checkpoint = .error (.notLineStart 6 8) ∧
      ∃ scan again,
        Scan.ofCheckpoint "a\n  b\r    d".toList {} checkpoint = .ok scan ∧
        traceOf "a\n  b\r    d".toList {} = .ok again ∧
        scan.trace.events = again.events.drop 1 ∧
        scan.trace.checkpoints = again.checkpoints.drop 2 := by
  obtain ⟨full, hfull, h⟩ :=
    @resume_after_edit {} (by decide) "a\n  b\rc".toList
  have hrecorded :
      (traceOf "a\n  b\rc".toList {}).map (fun trace => trace.checkpoints[1]?) =
        .ok (some ⟨2, 6, 1, [2, 0, 0, 0, 2, 0, 0, 0, 0, 0, 0, 0, 2, 0, 0, 0]⟩) := by
    decide +kernel
  rw [hfull] at hrecorded
  have hcheckpoint := Except.ok.inj hrecorded
  refine ⟨_, rfl, ?_, ?_⟩
  · obtain ⟨hrefused, -⟩ := h 1 _ hcheckpoint "a\n  b\r\nc".toList (by decide +kernel)
    exact (hrefused _).2 ⟨by decide +kernel, by decide +kernel⟩
  · obtain ⟨-, htaken⟩ := h 1 _ hcheckpoint "a\n  b\r    d".toList (by decide +kernel)
    obtain ⟨scan, again, hscan, hagain, -, -, -, hevents, hcheckpoints⟩ :=
      htaken (by decide +kernel)
    exact ⟨scan, again, hscan, hagain, hevents, hcheckpoints⟩

/-- Two accepted checkpoints of two sources may have nothing in common but the
state that their bytes spell and the text that follows.  The scans taken up there
find as many events and checkpoints, and position by position the same ones, apart
from the distances between the lines, offsets and counts of the two checkpoints. -/
theorem resume_depends_on_state_and_rest
    {options : Options}
    {source₁ source₂ : List Char}
    {checkpoint₁ checkpoint₂ : Checkpoint}
    {scan₁ scan₂ : Scan}
    {state₁ state₂ : IndentState}
    (h₁ : Scan.ofCheckpoint source₁ options checkpoint₁ = .ok scan₁)
    (h₂ : Scan.ofCheckpoint source₂ options checkpoint₂ = .ok scan₂)
    (hdecode₁ : IndentState.decode checkpoint₁.state = .ok state₁)
    (hdecode₂ : IndentState.decode checkpoint₂.state = .ok state₂)
    (hstates : (state₁ == state₂) = true)
    (hrest :
      (Utf8.bytes source₁).drop checkpoint₁.offset =
        (Utf8.bytes source₂).drop checkpoint₂.offset) :
    scan₁.trace.events.length = scan₂.trace.events.length ∧
    scan₁.trace.checkpoints.length = scan₂.trace.checkpoints.length ∧
    Trace.Shifted
      (checkpoint₂.line - checkpoint₁.line)
      (checkpoint₂.offset - checkpoint₁.offset)
      (checkpoint₂.emitted - checkpoint₁.emitted)
      scan₁.trace scan₂.trace := by
  obtain ⟨before₁, after₁, t₁, rfl, hoffset₁, -, ht₁, htrace₁⟩ :=
    Scan.exists_cut_of_ofCheckpoint h₁
  obtain ⟨before₂, after₂, t₂, rfl, hoffset₂, -, ht₂, htrace₂⟩ :=
    Scan.exists_cut_of_ofCheckpoint h₂
  rw [hdecode₁, Except.ok.injEq] at ht₁
  rw [hdecode₂, Except.ok.injEq] at ht₂
  subst ht₁
  subst ht₂
  rw [← hoffset₁, ← hoffset₂, Utf8.drop_bytes_append, Utf8.drop_bytes_append] at hrest
  have hafter : after₁ = after₂ := Utf8.bytes_injective hrest
  subst hafter
  have hview : state₂.view = state₁.view :=
    ((IndentState.beq_iff_view_eq _ _).1 hstates).symm
  have htraces :=
    (Cursor.Shifted.ofCheckpoint checkpoint₁ checkpoint₂ hview).traceLines options
      (Line.ofSource after₁)
  rw [← htrace₁, ← htrace₂] at htraces
  exact ⟨htraces.events.length_eq, htraces.checkpoints.length_eq, htraces⟩

/-- The initial state is written with no bytes or with twelve, behind texts of
different lengths. -/
theorem resume_depends_on_state_and_rest_initial :
    ∃ scan₁ scan₂,
      Scan.ofCheckpoint "x\n    a\n  b".toList {} ⟨7, 2, 5, []⟩ = .ok scan₁ ∧
      Scan.ofCheckpoint "né\r\n    a\n  b".toList {}
        ⟨0, 5, 1, [255, 255, 255, 255, 0, 0, 0, 0, 255, 255, 255, 255]⟩ = .ok scan₂ ∧
      Trace.Shifted (-7) 3 (-4) scan₁.trace scan₂.trace := by
  have h₁ :
      ∃ scan₁, Scan.ofCheckpoint "x\n    a\n  b".toList {} ⟨7, 2, 5, []⟩ = .ok scan₁ :=
    ⟨_, Scan.ofCheckpoint_eq_ok_iff.2 ⟨by decide, by decide +kernel, _, rfl, rfl⟩⟩
  have h₂ :
      ∃ scan₂,
        Scan.ofCheckpoint "né\r\n    a\n  b".toList {}
          ⟨0, 5, 1, [255, 255, 255, 255, 0, 0, 0, 0, 255, 255, 255, 255]⟩ = .ok scan₂ :=
    ⟨_, Scan.ofCheckpoint_eq_ok_iff.2 ⟨by decide, by decide +kernel, _, rfl, rfl⟩⟩
  obtain ⟨scan₁, h₁⟩ := h₁
  obtain ⟨scan₂, h₂⟩ := h₂
  obtain ⟨-, -, hshifted⟩ :=
    resume_depends_on_state_and_rest h₁ h₂ rfl rfl (by decide +kernel) (by decide +kernel)
  exact ⟨scan₁, scan₂, h₁, h₂, hshifted⟩

/-- Checkpoints of a scan that was taken up anywhere can be used on the same
source.  The scan that is taken up there gives what that scan gave behind them. -/
theorem resume_of_resume
    {source : List Char}
    {options : Options}
    {first : Checkpoint}
    {scan : Scan}
    (h : Scan.ofCheckpoint source options first = .ok scan)
    (index : Nat)
    {checkpoint : Checkpoint}
    (hcheckpoint : scan.trace.checkpoints[index]? = some checkpoint) :
    ∃ resumed,
      Scan.ofCheckpoint source options checkpoint = .ok resumed ∧
      first.emitted ≤ checkpoint.emitted ∧
      checkpoint.emitted - first.emitted ≤ scan.trace.events.length ∧
      resumed.trace.events = scan.trace.events.drop (checkpoint.emitted - first.emitted) ∧
      resumed.trace.checkpoints = scan.trace.checkpoints.drop (index + 1) := by
  obtain ⟨htab, -⟩ := Scan.ofCheckpoint_eq_ok_iff.1 h
  obtain ⟨before, after, state, rfl, hbefore, -, -, htrace⟩ := Scan.exists_cut_of_ofCheckpoint h
  rw [htrace] at hcheckpoint
  obtain ⟨front, back, rfl, hne, hcut, hlength, hstop, hoffset, hemitted⟩ :=
    exists_place_of_checkpoint hcheckpoint
  have hplace : checkpoint.offset = Utf8.byteLength (before ++ front) := by
    rw [hoffset, Utf8.byteLength_append, hbefore]
    rfl
  rw [hstop] at hplace
  obtain ⟨resumed, hresumed, hresumedTrace⟩ :=
    Scan.exists_ofCheckpoint_checkpoint htab hplace (hcut.append_left hne before)
  rw [← hstop, List.append_assoc] at hresumed
  have hcheckpoints :
      index + 1 =
        (Cursor.walk options (Cursor.ofCheckpoint first state)
          (Line.ofSource front)).checkpoints.length := by
    rw [Cursor.length_checkpoints_walk, hlength]
  have hevents :
      checkpoint.emitted - first.emitted =
        (Cursor.walk options (Cursor.ofCheckpoint first state)
          (Line.ofSource front)).events.length := by
    rw [hemitted]
    exact Nat.add_sub_cancel_left ..
  refine ⟨resumed, hresumed, ?_, ?_, ?_, ?_⟩
  · rw [hemitted]
    exact Nat.le_add_right _ _
  all_goals
    rw [htrace, Line.ofSource_append hcut, Cursor.traceLines_append]
  · simp [hevents]
  · simp [hevents, hresumedTrace]
  · simp [hcheckpoints, hresumedTrace]

/-- No scan comes to a state whose levels narrow and whose numbers are extreme,
and it can be taken up nevertheless. -/
theorem resume_of_resume_unreached :
    ∃ scan resumed,
      Scan.ofCheckpoint "x\n\n   a\n b".toList {}
        ⟨3, 2, 10, [4, 0, 0, 0, 2, 0, 0, 0, 0, 0, 0, 128, 255, 255, 255, 127, 255, 255, 255, 255]⟩ =
          .ok scan ∧
      Scan.ofCheckpoint "x\n\n   a\n b".toList {}
        ⟨5, 8, 11, [4, 0, 0, 0, 2, 0, 0, 0, 3, 0, 0, 0, 3, 0, 0, 0, 0, 0, 0, 0, 3, 0, 0, 0]⟩ =
          .ok resumed ∧
      resumed.trace.events = scan.trace.events.drop 1 ∧
      resumed.trace.checkpoints = scan.trace.checkpoints.drop 2 := by
  have h :
      ∃ scan,
        Scan.ofCheckpoint "x\n\n   a\n b".toList {}
          ⟨3, 2, 10,
            [4, 0, 0, 0, 2, 0, 0, 0, 0, 0, 0, 128, 255, 255, 255, 127, 255, 255, 255, 255]⟩ =
          .ok scan :=
    ⟨_, Scan.ofCheckpoint_eq_ok_iff.2 ⟨by decide, by decide +kernel, _, rfl, rfl⟩⟩
  have hrecorded :
      (traceFrom "x\n\n   a\n b".toList {}
        ⟨3, 2, 10,
          [4, 0, 0, 0, 2, 0, 0, 0, 0, 0, 0, 128, 255, 255, 255, 127, 255, 255, 255, 255]⟩).map
        (fun trace => trace.checkpoints[1]?) =
        .ok (some
          ⟨5, 8, 11,
            [4, 0, 0, 0, 2, 0, 0, 0, 3, 0, 0, 0, 3, 0, 0, 0, 0, 0, 0, 0, 3, 0, 0, 0]⟩) := by
    decide +kernel
  obtain ⟨scan, h⟩ := h
  rw [traceFrom, h] at hrecorded
  obtain ⟨resumed, hresumed, -, -, hevents, hcheckpoints⟩ :=
    resume_of_resume h 1 (Except.ok.inj hrecorded)
  exact ⟨scan, resumed, h, hresumed, hevents, hcheckpoints⟩

end Layout
end Offside
