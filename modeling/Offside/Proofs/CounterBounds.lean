import Mathlib.Data.List.ReduceOption
import Offside.Proofs.CheckedScan
import Offside.Proofs.EventLines
import Offside.Proofs.LineReading

/-!
# Counts that the text bounds

A single line may close every open level, so the number of its tokens says little.  Over a
whole run every dedent is paid for by a level, which an indent opened or which stood open
at the start: what a line tells and what it leaves open are together two more than what it
found open, or as many when the line is blank (`StateView.length_afterLine_add_le`).  By
induction the events up to the end are no more than the levels at the start and twice the
lines with content (`StateView.length_tokensToEnd_le`).

Every line takes a byte at least, so the text bounds the number of lines too, and with it
all counts.  A scan that counts in words therefore comes to the end
(`counters_bounded_by_text`).
-/

namespace Offside
namespace StateView

open Layout (Measure)

/-- What a line tells and what it leaves open is paid for by what it found open, and by
two more for a line with content. -/
theorem length_afterLine_add_le
    (v : StateView)
    (measure : Option Measure) :
    (v.afterLine measure).1.length + (v.afterLine measure).2.levels.length ≤
      v.levels.length + 2 * measure.toList.length := by
  cases measure with
  | none =>
      show 0 + v.levels.length ≤ v.levels.length + 0
      omega
  | some measure =>
      show (v.settle measure.width).1.length + (v.settle measure.width).2.levels.length ≤
        v.levels.length + 2
      have hsplit := congrArg List.length (v.kept_append_closedBy measure.width)
      have hlanding : (v.landing measure.width).toList.length ≤ 1 := Option.length_toList_le
      have hopened :
          (if v.landing measure.width = some .indent then [measure.width] else []).length ≤ 1 := by
        split <;> simp
      rw [List.length_append] at hsplit
      rw [settle_eq, withLevels_levels, List.length_append, List.length_append,
        List.length_replicate]
      omega

/-- So it is over some lines. -/
theorem length_tokensOver_add_le
    (v : StateView)
    (measures : List (Option Measure)) :
    (v.tokensOver measures).length + (v.after measures).levels.length ≤
      v.levels.length + 2 * measures.reduceOption.length := by
  induction measures generalizing v with
  | nil =>
      show 0 + v.levels.length ≤ v.levels.length + 0
      omega
  | cons measure rest ih =>
      have hline := v.length_afterLine_add_le measure
      have hrest := ih (v.afterLine measure).2
      have hcount :
          (measure :: rest).reduceOption.length =
            measure.toList.length + rest.reduceOption.length := by
        cases measure with
        | none => simp
        | some measure => simp [Nat.add_comm]
      rw [tokensOver, List.length_append, after_cons, hcount]
      omega

/-- The levels that are open behind the last line are closed at the price that is left. -/
theorem length_tokensToEnd_le
    (v : StateView)
    (measures : List (Option Measure)) :
    (v.tokensToEnd measures).length ≤ v.levels.length + 2 * measures.reduceOption.length := by
  rw [tokensToEnd, List.length_append, List.length_replicate]
  exact v.length_tokensOver_add_le measures

end StateView

namespace Layout

/-- Number of the lines of a text that have content. -/
def contentCount
    (options : Options)
    (text : List Char) :
    Nat :=
  (TextLine.split text).countP fun line => !line.isBlank options.commentsAreBlank

/-- These are the lines that have a measure. -/
theorem length_reduceOption_measuresOf
    (options : Options)
    (text : List Char) :
    (measuresOf options text).reduceOption.length = contentCount options text := by
  rw [measuresOf, List.reduceOption, List.filterMap_map, List.length_filterMap_eq_countP,
    contentCount]
  refine List.countP_congr ?_
  intro line _
  have hblank := line.beforeLastContent?_eq_none_iff options.commentsAreBlank
  rw [Function.id_comp, TextLine.measure?, Option.isSome_map, Option.isSome_iff_ne_none, Ne,
    hblank, Bool.not_eq_true, Bool.not_eq_true']

/-- Lines that are not empty are no more than their bytes. -/
theorem length_le_byteLength
    {lines : List Line}
    (hlines : ∀ line ∈ lines, line.text ≠ []) :
    lines.length ≤ Utf8.byteLength (lines.flatMap Line.text) := by
  induction lines with
  | nil => exact Nat.zero_le _
  | cons line lines ih =>
      have hpos := Utf8.byteLength_pos (hlines line List.mem_cons_self)
      have hrest := ih fun later hlater => hlines later (List.mem_cons_of_mem line hlater)
      rw [List.length_cons, List.flatMap_cons, Utf8.byteLength_append]
      omega

namespace Cursor

/-- The events of a scan over some lines carry later numbers than the line before. -/
theorem line_lt_of_mem_traceLines
    {options : Options}
    {c : Cursor}
    {lines : List Line}
    (hne : lines ≠ [])
    {event : Event}
    (hevent : event ∈ (c.traceLines options lines).events) :
    c.line < event.line := by
  have hpos := List.length_pos_iff.2 hne
  rcases List.mem_append.1 hevent with hevent | hevent
  · exact ((c.pairwise_line_walk options lines).2 event hevent).1
  · rw [List.eq_of_mem_replicate hevent]
    show c.line < (c.walk options lines).stop.line
    rw [line_stop_walk]
    omega

/-- By their numbers the events up to a line are those of the way to it, and behind the
last line also those that close the levels open there. -/
theorem countP_line_le_traceLines
    (options : Options)
    (c : Cursor)
    (front back : List Line) :
    (c.traceLines options (front ++ back)).events.countP (·.line ≤ c.line + front.length) =
      (c.walk options front).events.length +
        if back = [] then (c.walk options front).stop.state.depth else 0 := by
  have hfront :
      (c.walk options front).events.countP (·.line ≤ c.line + front.length) =
        (c.walk options front).events.length := by
    rw [List.countP_eq_length]
    intro event hevent
    exact decide_eq_true ((c.pairwise_line_walk options front).2 event hevent).2
  rw [traceLines_append, List.countP_append, hfront, ← line_stop_walk options c front]
  congr 1
  by_cases hback : back = []
  · subst hback
    have hclosing :
        ((c.walk options front).stop.traceLines options []).events =
          (c.walk options front).stop.closing := rfl
    rw [if_pos rfl, hclosing, closing, List.countP_replicate, if_pos (by simp)]
  · rw [if_neg hback, List.countP_eq_zero]
    intro event hevent
    have hlt := line_lt_of_mem_traceLines hback hevent
    simp only [decide_eq_true_eq]
    omega

end Cursor

/-- How the counts of a trace stand to the text that a scan goes over from some place on. -/
structure BoundedByText
    (options : Options)
    (c : Cursor)
    (text : List Char)
    (trace : Trace) :
    Prop where
  length_checkpoints : trace.checkpoints.length = (TextLine.split text).length
  lines_le : (TextLine.split text).length ≤ Utf8.byteLength text
  events_le : trace.events.length ≤ c.state.depth + 2 * contentCount options text
  line_eq : ∀ index checkpoint,
    trace.checkpoints[index]? = some checkpoint → checkpoint.line = c.line + (index + 1)
  line_mono : trace.events.Pairwise (·.line ≤ ·.line)
  /-- A checkpoint counts the events of the lines up to it.  By their numbers these are told
  from all others, except from the dedents behind the last line, of which there is one for
  each level that the last checkpoint has open. -/
  emitted_eq : ∀ index checkpoint,
    trace.checkpoints[index]? = some checkpoint →
    ∃ state,
      IndentState.decode checkpoint.state = .ok state ∧
      c.emitted + trace.events.countP (·.line ≤ checkpoint.line) =
        checkpoint.emitted + if index + 1 = trace.checkpoints.length then state.depth else 0
  /-- A blank line counts one more blank line, up to the greatest signed word. -/
  blankRun : ∀ index line,
    (TextLine.split text)[index]? = some line →
    line.isBlank options.commentsAreBlank = true →
    ∃ before after,
      trace.stateFrom? c.state index = some before ∧
      trace.stateFrom? c.state (index + 1) = some after ∧
      before.blankRun ≤ after.blankRun ∧
      after.blankRun.toInt = min (before.blankRun.toInt + 1) 2147483647

namespace Cursor

/-- A blank line counts one more, whatever was counted before. -/
theorem exists_blankRun
    {options : Options}
    (c : Cursor)
    {text : List Char}
    {index : Nat}
    {line : TextLine}
    (hline : (TextLine.split text)[index]? = some line)
    (hblank : line.isBlank options.commentsAreBlank = true) :
    ∃ before after,
      (c.traceLines options (Line.ofSource text)).stateFrom? c.state index = some before ∧
      (c.traceLines options (Line.ofSource text)).stateFrom? c.state (index + 1) = some after ∧
      after.blankRun = Columns.increment before.blankRun := by
  have hmeasure : (measuresOf options text)[index]? = some none := by
    rw [measuresOf, List.getElem?_map, hline, Option.map_some, TextLine.measure?,
      (line.beforeLastContent?_eq_none_iff options.commentsAreBlank).2 hblank]
    rfl
  obtain ⟨hlt, -⟩ := List.getElem?_eq_some_iff.1 hmeasure
  obtain ⟨before, hbefore, hviewBefore⟩ := c.exists_stateFrom options hlt.le
  obtain ⟨after, hafter, hviewAfter⟩ := c.exists_stateFrom options hlt
  refine ⟨before, after, hbefore, hafter, ?_⟩
  rw [List.take_add_one, hmeasure, Option.toList_some, StateView.after_append, ← hviewBefore]
    at hviewAfter
  exact congrArg StateView.blankRun hviewAfter

/-- A checkpoint counts the events of the way to it. -/
theorem emitted_of_traceLines
    {options : Options}
    {c : Cursor}
    {lines : List Line}
    {index : Nat}
    {checkpoint : Checkpoint}
    (h : (c.traceLines options lines).checkpoints[index]? = some checkpoint) :
    ∃ state,
      IndentState.decode checkpoint.state = .ok state ∧
      c.emitted + (c.traceLines options lines).events.countP (·.line ≤ checkpoint.line) =
        checkpoint.emitted + if index + 1 = lines.length then state.depth else 0 := by
  obtain ⟨hindex, rfl⟩ := getElem?_checkpoints_walk h
  have hcount :=
    countP_line_le_traceLines options c (lines.take (index + 1)) (lines.drop (index + 1))
  have hlast : lines.drop (index + 1) = [] ↔ index + 1 = lines.length := by
    rw [List.drop_eq_nil_iff]
    omega
  obtain ⟨state, hdecode, hview⟩ :=
    IndentState.exists_decode_encode (c.walk options (lines.take (index + 1))).stop.state
  have hline :
      (c.walk options (lines.take (index + 1))).stop.checkpoint.line =
        c.line + (lines.take (index + 1)).length :=
    line_stop_walk options c _
  have hemitted :
      (c.walk options (lines.take (index + 1))).stop.checkpoint.emitted =
        c.emitted + (c.walk options (lines.take (index + 1))).events.length :=
    emitted_stop_walk options c _
  refine ⟨state, hdecode, ?_⟩
  rw [List.take_append_drop] at hcount
  simp only [hlast] at hcount
  rw [hline, hcount, hemitted, IndentState.depth_eq_of_view_eq hview, Nat.add_assoc]

/-- The text bounds what a scan over it counts, from any place on. -/
theorem boundedByText
    (options : Options)
    (c : Cursor)
    (text : List Char) :
    BoundedByText options c text (c.traceLines options (Line.ofSource text)) := by
  have hlength : (Line.ofSource text).length = (TextLine.split text).length := by
    rw [Line.ofSource_eq, List.length_map]
  have hcheckpoints :
      (c.traceLines options (Line.ofSource text)).checkpoints.length =
        (Line.ofSource text).length :=
    length_checkpoints_walk options c _
  refine ⟨hcheckpoints.trans hlength, ?_, ?_, ?_, c.pairwise_line_traceLines options _, ?_, ?_⟩
  · have hne : ∀ line ∈ Line.ofSource text, line.text ≠ [] :=
      fun _ hline => Line.text_ne_nil_of_mem_ofSource hline
    have hle := length_le_byteLength hne
    rwa [hlength, Line.flatMap_text_ofSource] at hle
  · have htokens := congrArg List.length (c.tokens_traceLines options (Line.ofSource text))
    have hle := c.state.view.length_tokensToEnd_le (measuresOf options text)
    rw [Trace.tokens, List.length_map, ← measuresOf_eq] at htokens
    rwa [← htokens, length_reduceOption_measuresOf, IndentState.view_levels,
      IndentState.levels_length] at hle
  · intro index checkpoint hcheckpoint
    obtain ⟨-, hline, -⟩ := checkpoint_of_traceLines hcheckpoint
    exact hline
  · intro index checkpoint hcheckpoint
    rw [hcheckpoints]
    exact emitted_of_traceLines hcheckpoint
  · intro index line hline hblank
    obtain ⟨before, after, hbefore, hafter, hrun⟩ := c.exists_blankRun hline hblank
    have hvalue := Columns.toInt_increment_eq_min before.blankRun
    rw [← hrun] at hvalue
    refine ⟨before, after, hbefore, hafter, ?_, hvalue⟩
    rw [Int32.le_iff_toInt_le, hvalue]
    have hlt := before.blankRun.toInt_lt
    omega

end Cursor

/-- The text behind the place where a scan stands bounds its counts, and where the bounds
are words the scan comes to the end when it counts in words. -/
theorem Scan.boundedByText
    {scan : Scan}
    {before after : List Char}
    (hsource : scan.source = before ++ after)
    (hoffset : scan.cursor.offset = Utf8.byteLength before) :
    BoundedByText scan.options scan.cursor after scan.trace ∧
    (scan.cursor.line + (TextLine.split after).length < UInt64.size →
      scan.cursor.emitted + scan.cursor.state.depth + 2 * contentCount scan.options after <
        UInt64.size →
      scan.checkedTrace? = some scan.trace) := by
  have hbounds : BoundedByText scan.options scan.cursor after scan.trace := by
    rw [trace_eq_traceLines hsource hoffset]
    exact scan.cursor.boundedByText scan.options after
  refine ⟨hbounds, ?_⟩
  intro hlines hevents
  have hcheckpoints := hbounds.length_checkpoints
  have hle := hbounds.events_le
  exact checkedTrace?_eq hsource hoffset (by omega) (by omega)

/-- The text that a scan goes over bounds what it counts.  There are no more lines than
bytes, and no more events than the levels that are open at the start and twice the lines
with content; checkpoints carry consecutive numbers and count the events up to them, and
the count of blank lines stops at the greatest signed word.  So a scan of a source of less
than 2 ^ 63 bytes comes to the end when it counts in words, and one that is taken up at an
accepted checkpoint does where these bounds, added to the counts of the checkpoint, are
words.  Positions never lie behind the end of the source. -/
theorem counters_bounded_by_text
    {options : Options}
    (htab : options.tabWidth ≠ 0)
    (source : List Char) :
    (∃ scan,
      Scan.ofSource source options = .ok scan ∧
      BoundedByText options Cursor.start source scan.trace ∧
      (Utf8.byteLength source < 9223372036854775808 →
        scan.checkedTrace? = some scan.trace)) ∧
    ∀ (checkpoint : Checkpoint) (scan : Scan),
      Scan.ofCheckpoint source options checkpoint = .ok scan →
      ∃ state,
        IndentState.decode checkpoint.state = .ok state ∧
        checkpoint.offset + Utf8.byteLength scan.rest = Utf8.byteLength source ∧
        BoundedByText options (Cursor.ofCheckpoint checkpoint state) scan.rest scan.trace ∧
        (checkpoint.line + (TextLine.split scan.rest).length < UInt64.size →
          checkpoint.emitted + state.depth + 2 * contentCount options scan.rest < UInt64.size →
          scan.checkedTrace? = some scan.trace) := by
  have hsize : UInt64.size = 18446744073709551616 := rfl
  refine ⟨⟨⟨source, options, Cursor.start⟩, if_neg htab, ?_⟩, ?_⟩
  · obtain ⟨hbounds, hchecked⟩ :=
      @Scan.boundedByText ⟨source, options, Cursor.start⟩ [] source rfl rfl
    refine ⟨hbounds, ?_⟩
    intro hbytes
    have hlines := hbounds.lines_le
    have hcontent : contentCount options source ≤ (TextLine.split source).length :=
      List.countP_le_length
    exact hchecked
      (by show 0 + (TextLine.split source).length < _; omega)
      (by show 0 + 0 + 2 * contentCount options source < _; omega)
  · intro checkpoint scan hscan
    obtain ⟨-, hstart, state, hdecode, rfl⟩ := Scan.ofCheckpoint_eq_ok_iff.1 hscan
    obtain ⟨before, after, rfl, hoffset, -⟩ := (startsLine_iff_exists_cut _ _).1 hstart
    have hrest :=
      @Scan.rest_eq ⟨before ++ after, options, Cursor.ofCheckpoint checkpoint state⟩
        before after rfl hoffset.symm
    obtain ⟨hbounds, hchecked⟩ :=
      @Scan.boundedByText ⟨before ++ after, options, Cursor.ofCheckpoint checkpoint state⟩
        before after rfl hoffset.symm
    rw [hrest, ← hoffset, Utf8.byteLength_append]
    exact ⟨state, hdecode, rfl, hbounds, hchecked⟩

/-- Three lines and at most six events lead from the counts of the checkpoint to the greatest
words, in a state whose levels narrow and whose count of blank lines is full. -/
theorem counters_bounded_by_text_at_greatest :
    ∃ scan state,
      Scan.ofCheckpoint "x\n\n   a\n b".toList {}
        ⟨18446744073709551612, 2, 18446744073709551609,
          [4, 0, 0, 0, 2, 0, 0, 0, 0, 0, 0, 128, 255, 255, 255, 127, 255, 255, 255, 255]⟩ =
          .ok scan ∧
      scan.trace.tokens = [.indent, .dedent, .dedent, .dedent, .misdent] ∧
      BoundedByText {} ⟨state, 18446744073709551612, 2, 18446744073709551609⟩
        "\n   a\n b".toList scan.trace ∧
      scan.checkedTrace? = some scan.trace ∧
      ∃ fresh,
        Scan.ofSource "x\n\n   a\n b".toList {} = .ok fresh ∧
        fresh.checkedTrace? = some fresh.trace := by
  have h :
      ∃ scan,
        Scan.ofCheckpoint "x\n\n   a\n b".toList {}
          ⟨18446744073709551612, 2, 18446744073709551609,
            [4, 0, 0, 0, 2, 0, 0, 0, 0, 0, 0, 128, 255, 255, 255, 127, 255, 255, 255, 255]⟩ =
          .ok scan :=
    ⟨_, Scan.ofCheckpoint_eq_ok_iff.2 ⟨by decide, by decide +kernel, _, rfl, rfl⟩⟩
  have hscanned :
      (Scan.ofCheckpoint "x\n\n   a\n b".toList {}
          ⟨18446744073709551612, 2, 18446744073709551609,
            [4, 0, 0, 0, 2, 0, 0, 0, 0, 0, 0, 128, 255, 255, 255, 127, 255, 255, 255, 255]⟩).map
          (fun scan => (scan.trace.tokens, scan.rest)) =
        .ok ([.indent, .dedent, .dedent, .dedent, .misdent], "\n   a\n b".toList) := by
    decide +kernel
  have hdepth :
      (IndentState.decode
        [4, 0, 0, 0, 2, 0, 0, 0, 0, 0, 0, 128, 255, 255, 255, 127, 255, 255, 255, 255]).map
        IndentState.depth =
        .ok 2 := by
    decide +kernel
  obtain ⟨scan, hscan⟩ := h
  obtain ⟨⟨fresh, hfresh, -, hwhole⟩, hresumed⟩ :=
    @counters_bounded_by_text {} (by decide) "x\n\n   a\n b".toList
  obtain ⟨state, hdecode, -, hbounds, hchecked⟩ := hresumed _ _ hscan
  rw [hscan] at hscanned
  rw [hdecode] at hdepth
  obtain ⟨htokens, hrest⟩ := Prod.mk.inj (Except.ok.inj hscanned)
  rw [hrest, Except.ok.inj hdepth] at hchecked
  rw [hrest] at hbounds
  exact
    ⟨scan, state, hscan, htokens, hbounds, hchecked (by decide +kernel) (by decide +kernel),
      fresh, hfresh, hwhole (by decide +kernel)⟩

end Layout
end Offside
