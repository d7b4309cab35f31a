import Offside.Proofs.LineOutcome

/-!
# Events and checkpoints

The events of a scan are one list, in which each checkpoint marks a place by the number
of events before it.  Between two such places stand the events of one line: they carry its
number, dedents come first, and one other token at the end.  Behind the last place stand
the dedents that the end of the source gives, which carry the number of the last line
(`LinedUp`).

That the line numbers never decrease is a fact of the way over the lines
(`Cursor.pairwise_line_traceLines`), and that each line with content gives one token that
is no dedent is one of the run over the measures (`StateView.countP_ne_dedent_tokensOver`).
-/

namespace Offside

theorem Layout.countP_ne_dedent_replicate (n : Nat) :
    (List.replicate n Layout.Token.dedent).countP (· ≠ .dedent) = 0 := by
  rw [List.countP_eq_zero]
  intro token htoken
  simp [List.eq_of_mem_replicate htoken]

namespace StateView

open Layout (Token Measure)

/-- A line with content gives one token that is no dedent, or none. -/
theorem countP_ne_dedent_afterLine
    (v : StateView)
    (measure : Measure) :
    (v.afterLine (some measure)).1.countP (· ≠ .dedent) =
      if v.landing measure.width = none then 0 else 1 := by
  show (v.settle measure.width).1.countP (· ≠ .dedent) = _
  rw [settle_eq, List.countP_append, Layout.countP_ne_dedent_replicate, Nat.zero_add]
  cases hlanding : v.landing measure.width with
  | none => rfl
  | some token =>
      have hne : token ≠ .dedent := by
        rintro rfl
        exact landing_ne_dedent hlanding
      simp [hne]

/-- A line with content gives no token, or dedents and then one other token, which is no
indent behind a dedent and no misdent without one. -/
theorem settle_tokens_cases
    (v : StateView)
    (width : UInt32) :
    (v.landing width = none ∧ (v.settle width).1 = []) ∨
    (∃ closed landing,
      v.landing width = some landing ∧
      landing ≠ .dedent ∧
      (v.settle width).1 = List.replicate closed .dedent ++ [landing] ∧
      (landing = .indent → closed = 0) ∧
      (landing = .misdent → closed ≠ 0)) := by
  have hclosed : (v.closedBy width).length = 0 ↔ v.currentWidth ≤ width := by
    rw [List.length_eq_zero_iff, closedBy_eq_nil_iff]
  rw [settle_eq]
  cases hlanding : v.landing width with
  | none =>
      left
      rw [hclosed.2 (UInt32.le_of_eq (landing_eq_none_iff.1 hlanding).1)]
      exact ⟨rfl, rfl⟩
  | some landing =>
      right
      refine ⟨_, landing, rfl, ?_, rfl, ?_, ?_⟩
      · rintro rfl
        exact landing_ne_dedent hlanding
      · rintro rfl
        exact hclosed.2 (UInt32.le_of_lt (landing_eq_indent_iff.1 hlanding).2.1)
      · rintro rfl hzero
        exact UInt32.not_lt.2 (hclosed.1 hzero) (landing_eq_misdent_iff.1 hlanding).1

/-- What is remembered of a width is not what stands for no measure. -/
theorem remembered_ne_unmeasured (width : UInt32) :
    Layout.Columns.remembered width ≠ unmeasured := by
  intro heq
  have hvalue : unmeasured.toInt = -1 := rfl
  have hremembered := Layout.Columns.toInt_remembered width
  rw [heq, hvalue] at hremembered
  omega

/-- Behind a line with content each line with content gives one such token. -/
theorem countP_ne_dedent_of_measured
    {v : StateView}
    (h : v.lastWidth ≠ unmeasured)
    (measures : List (Option Measure)) :
    (v.tokensOver measures).countP (· ≠ .dedent) = measures.reduceOption.length := by
  induction measures generalizing v with
  | nil => rfl
  | cons measure rest ih =>
      cases measure with
      | none => exact ih h
      | some measure =>
          have hlanding : v.landing measure.width ≠ none :=
            fun hnone => h (landing_eq_none_iff.1 hnone).2
          have hline := v.countP_ne_dedent_afterLine measure
          have hrest := ih (v := (v.afterLine (some measure)).2)
            (remembered_ne_unmeasured measure.width)
          rw [if_neg hlanding] at hline
          rw [tokensOver, List.countP_append, hline, hrest, List.reduceOption_cons_of_some,
            List.length_cons, Nat.add_comm]

/-- From the start on so does each line with content, but for a first one without
indentation. -/
theorem countP_ne_dedent_tokensOver
    {v : StateView}
    (hlast : v.lastWidth = unmeasured)
    (hlevels : v.levels = [])
    (measures : List (Option Measure)) :
    (v.tokensOver measures).countP (· ≠ .dedent) +
        (if measures.reduceOption.head?.map Measure.width = some 0 then 1 else 0) =
      measures.reduceOption.length := by
  induction measures generalizing v with
  | nil => rfl
  | cons measure rest ih =>
      cases measure with
      | none => exact ih hlast hlevels
      | some measure =>
          have hcurrent : v.currentWidth = 0 := by
            rw [currentWidth, hlevels]
            rfl
          have hnone : v.landing measure.width = none ↔ measure.width = 0 := by
            rw [landing_eq_none_iff, hcurrent, and_iff_left hlast, eq_comm]
          have hline := v.countP_ne_dedent_afterLine measure
          have hrest := countP_ne_dedent_of_measured (v := (v.afterLine (some measure)).2)
            (remembered_ne_unmeasured measure.width) rest
          rw [tokensOver, List.countP_append, hline, hrest, List.reduceOption_cons_of_some,
            List.length_cons, List.head?_cons, Option.map_some]
          by_cases hzero : measure.width = 0
          · rw [if_pos (hnone.2 hzero), if_pos (congrArg some hzero)]
            omega
          · rw [if_neg fun h => hzero (hnone.1 h), if_neg fun h => hzero (Option.some.inj h)]
            omega

end StateView

namespace Layout
namespace Cursor

/-- The events of the way over some lines carry their numbers, in order. -/
theorem pairwise_line_walk
    (options : Options)
    (c : Cursor)
    (lines : List Line) :
    ((c.walk options lines).events.Pairwise (·.line ≤ ·.line)) ∧
      ∀ event ∈ (c.walk options lines).events,
        c.line < event.line ∧ event.line ≤ c.line + lines.length := by
  induction lines generalizing c with
  | nil => exact ⟨List.Pairwise.nil, List.forall_mem_nil _⟩
  | cons line rest ih =>
      obtain ⟨hpairwise, hbounds⟩ := ih (c.stepLine options line).2
      have hstep : ∀ event ∈ (c.stepLine options line).1, event.line = c.line + 1 := by
        intro event hevent
        obtain ⟨token, -, rfl⟩ := List.mem_map.1 hevent
        rfl
      have hnext : (c.stepLine options line).2.line = c.line + 1 := rfl
      rw [hnext] at hbounds
      rw [walk, List.length_cons]
      refine ⟨List.pairwise_append.2 ⟨?_, hpairwise, ?_⟩, ?_⟩
      · refine List.pairwise_of_forall_mem_list ?_
        intro event hevent other hother
        rw [hstep event hevent, hstep other hother]
      · intro event hevent other hother
        have hother := hbounds other hother
        rw [hstep event hevent]
        omega
      · intro event hevent
        rcases List.mem_append.1 hevent with hevent | hevent
        · rw [hstep event hevent]
          omega
        · have hevent := hbounds event hevent
          omega

/-- So do all events of a scan, the last of which close the levels that are open. -/
theorem pairwise_line_traceLines
    (options : Options)
    (c : Cursor)
    (lines : List Line) :
    (c.traceLines options lines).events.Pairwise (·.line ≤ ·.line) := by
  obtain ⟨hpairwise, hbounds⟩ := c.pairwise_line_walk options lines
  have hclosing :
      ∀ event ∈ (c.walk options lines).stop.closing, event.line = c.line + lines.length := by
    intro event hevent
    rw [List.eq_of_mem_replicate hevent]
    exact line_stop_walk options c lines
  refine List.pairwise_append.2 ⟨hpairwise, ?_, ?_⟩
  · refine List.pairwise_of_forall_mem_list ?_
    intro event hevent other hother
    rw [hclosing event hevent, hclosing other hother]
  · intro event hevent other hother
    rw [hclosing other hother]
    exact (hbounds event hevent).2

end Cursor

namespace Trace

/-- The events of a line. -/
def lineEvents
    (trace : Trace)
    (line : Nat) :
    List Event :=
  (trace.events.take (trace.tokensBefore (line + 1))).drop (trace.tokensBefore line)

theorem map_token_lineEvents
    (trace : Trace)
    (line : Nat) :
    (trace.lineEvents line).map Event.token = trace.lineTokens line := by
  rw [lineEvents, List.map_drop, List.map_take]
  rfl

end Trace

section

variable {options : Options} {source : List Char} {full : Trace} {line : Nat} {width : UInt32}

/-- The lines of a source measure as its texts do, so that they are as many. -/
theorem measuresOf_eq (options : Options) (source : List Char) :
    measuresOf options source = (Line.ofSource source).map (Line.measure? options) :=
  (Line.map_measure?_ofSource options source).symm

theorem length_ofSource (options : Options) (source : List Char) :
    (Line.ofSource source).length = (measuresOf options source).length := by
  rw [measuresOf_eq, List.length_map]

/-- Before a line stand the events of the way over the lines before it. -/
theorem tokensBefore_eq_length_walk
    (htab : options.tabWidth ≠ 0)
    (hfull : traceOf source options = .ok full)
    {front back : List Line}
    (hlines : Line.ofSource source = front ++ back) :
    full.tokensBefore front.length = (Cursor.start.walk options front).events.length := by
  have hmeasures :
      measuresOf options source =
        front.map (Line.measure? options) ++ back.map (Line.measure? options) := by
    rw [measuresOf_eq, hlines, List.map_append]
  have hle : front.length ≤ (measuresOf options source).length := by
    rw [hmeasures, List.length_append, List.length_map]
    exact Nat.le_add_right _ _
  have hlength := congrArg List.length (Cursor.start.tokens_walk options front)
  rw [List.length_map] at hlength
  rw [tokensBefore_of_le htab hfull hle, hmeasures, List.take_left' (List.length_map ..), hlength]
  rfl

/-- The events of a line are those of its step. -/
theorem lineEvents_of_append
    (htab : options.tabWidth ≠ 0)
    (hfull : traceOf source options = .ok full)
    {front back : List Line}
    {next : Line}
    (hlines : Line.ofSource source = front ++ next :: back) :
    full.lineEvents front.length =
      ((Cursor.start.walk options front).stop.stepLine options next).1 := by
  have hlines' : Line.ofSource source = (front ++ [next]) ++ back := by
    rw [hlines, List.append_assoc]
    rfl
  have hstart := tokensBefore_eq_length_walk htab hfull hlines
  have hstop := tokensBefore_eq_length_walk htab hfull hlines'
  rw [List.length_append, List.length_singleton] at hstop
  have hevents :
      full.events =
        (Cursor.start.walk options (front ++ [next])).events ++
          ((Cursor.start.walk options (front ++ [next])).stop.traceLines options back).events := by
    rw [traceOf_eq htab, Except.ok.injEq] at hfull
    rw [← hfull, hlines', Cursor.traceLines_append]
  have hwalk :
      (Cursor.start.walk options (front ++ [next])).events =
        (Cursor.start.walk options front).events ++
          ((Cursor.start.walk options front).stop.stepLine options next).1 := by
    rw [Cursor.walk_append]
    simp [Cursor.walk]
  rw [Trace.lineEvents, hstart, hstop, hevents, List.take_left, hwalk, List.drop_left]

/-- They are its tokens, with its number. -/
theorem lineEvents_eq_map
    (htab : options.tabWidth ≠ 0)
    (hfull : traceOf source options = .ok full)
    (hline : line < (measuresOf options source).length) :
    full.lineEvents line = (full.lineTokens line).map (Event.mk (line + 1)) := by
  rw [← length_ofSource] at hline
  have hlength : ((Line.ofSource source).take line).length = line := by
    rw [List.length_take]
    omega
  have hlines :
      Line.ofSource source =
        (Line.ofSource source).take line ++
          (Line.ofSource source)[line] :: (Line.ofSource source).drop (line + 1) := by
    rw [List.getElem_cons_drop, List.take_append_drop]
  have hevents := lineEvents_of_append htab hfull hlines
  have hnumber :
      (Cursor.start.walk options ((Line.ofSource source).take line)).stop.line = line := by
    rw [Cursor.line_stop_walk, hlength]
    exact Nat.zero_add line
  rw [hlength, Cursor.stepLine, Cursor.step, hnumber] at hevents
  rw [← full.map_token_lineEvents, hevents]
  simp [Function.comp_def]

/-- Behind the last line stand the events that close the levels that are still open. -/
theorem lineEvents_end
    (htab : options.tabWidth ≠ 0)
    (hfull : traceOf source options = .ok full) :
    ∃ state,
      full.stateBefore? (measuresOf options source).length = some state ∧
      full.lineEvents (measuresOf options source).length =
        List.replicate state.depth ⟨(measuresOf options source).length, .dedent⟩ := by
  obtain ⟨state, hstate, hview⟩ := exists_stateBefore htab hfull (Nat.le_refl _)
  refine ⟨state, hstate, ?_⟩
  have hdepth :
      (Cursor.start.walk options (Line.ofSource source)).stop.state.depth = state.depth := by
    apply IndentState.depth_eq_of_view_eq
    rw [hview, List.take_length, Cursor.view_stop_walk, ← measuresOf_eq]
    rfl
  have hline :
      (Cursor.start.walk options (Line.ofSource source)).stop.line =
        (measuresOf options source).length := by
    rw [Cursor.line_stop_walk, length_ofSource options]
    exact Nat.zero_add _
  have hevents :
      full.events =
        (Cursor.start.walk options (Line.ofSource source)).events ++
          (Cursor.start.walk options (Line.ofSource source)).stop.closing := by
    rw [traceOf_eq htab, Except.ok.injEq] at hfull
    rw [← hfull]
    rfl
  have hstart :=
    tokensBefore_eq_length_walk htab hfull (List.append_nil (Line.ofSource source)).symm
  have hstop := tokensBefore_end htab hfull
  rw [length_ofSource options] at hstart
  rw [Trace.tokens, List.length_map] at hstop
  rw [Trace.lineEvents, hstop, List.take_length, hstart, hevents, List.drop_left, Cursor.closing,
    hdepth, hline]

/-- More lines give no fewer tokens. -/
theorem tokensBefore_mono
    (htab : options.tabWidth ≠ 0)
    (hfull : traceOf source options = .ok full)
    {first second : Nat}
    (hle : first ≤ second)
    (hsecond : second ≤ (measuresOf options source).length) :
    full.tokensBefore first ≤ full.tokensBefore second := by
  have htake : (measuresOf options source).take second =
      (measuresOf options source).take first ++
        ((measuresOf options source).take second).drop first := by
    conv_lhs => rw [← List.take_append_drop first ((measuresOf options source).take second)]
    rw [List.take_take, Nat.min_eq_left hle]
  rw [tokensBefore_of_le htab hfull (Nat.le_trans hle hsecond),
    tokensBefore_of_le htab hfull hsecond, htake, StateView.tokensOver_append, List.length_append]
  exact Nat.le_add_right _ _

theorem tokensBefore_le_length
    (htab : options.tabWidth ≠ 0)
    (hfull : traceOf source options = .ok full)
    (hline : line ≤ (measuresOf options source).length) :
    full.tokensBefore line ≤ full.tokens.length := by
  have htokens := tokens_of_traceOf htab hfull
  rw [← List.take_append_drop line (measuresOf options source), StateView.tokensToEnd_append]
    at htokens
  rw [tokensBefore_of_le htab hfull hline, htokens, List.length_append]
  exact Nat.le_add_right _ _

/-- The number of a checkpoint's line tells how many tokens stand before it. -/
theorem emitted_eq_tokensBefore
    (hcheckpoint : full.checkpoints[line]? = some checkpoint) :
    checkpoint.emitted = full.tokensBefore (line + 1) := by
  rw [Trace.tokensBefore, hcheckpoint]
  rfl

theorem lineEvents_of_blank
    (htab : options.tabWidth ≠ 0)
    (hfull : traceOf source options = .ok full)
    (hwidth : (lineWidths options source)[line]? = some none) :
    full.lineEvents line = [] := by
  rw [lineWidths_eq, List.getElem?_map, Option.map_eq_some_iff] at hwidth
  obtain ⟨measure, hline, hnone⟩ := hwidth
  rw [Option.map_eq_none_iff] at hnone
  subst hnone
  rw [← List.map_eq_nil_iff, full.map_token_lineEvents, lineTokens_of_getElem? htab hfull hline]
  rfl

/-- A first line with content has no events when it has no indentation.  Any other line
with content has some. -/
theorem lineEvents_of_content
    (htab : options.tabWidth ≠ 0)
    (hfull : traceOf source options = .ok full)
    (hwidth : (lineWidths options source)[line]? = some (some width)) :
    ((∀ earlier ∈ (lineWidths options source).take line, earlier = none) ∧ width = 0 ∧
      full.lineEvents line = []) ∨
    (¬ ((∀ earlier ∈ (lineWidths options source).take line, earlier = none) ∧ width = 0) ∧
      ∃ closed landing,
        landing ≠ .dedent ∧
        full.lineEvents line =
          List.replicate closed ⟨line + 1, .dedent⟩ ++ [⟨line + 1, landing⟩] ∧
        (landing = .indent → closed = 0) ∧
        (landing = .misdent → closed ≠ 0)) := by
  obtain ⟨before, -, -, -, hview, htokens, -⟩ := exists_settle_of_width htab hfull hwidth
  have hline : line < (measuresOf options source).length := by
    obtain ⟨hlt, -⟩ := List.getElem?_eq_some_iff.1 hwidth
    rwa [lineWidths_eq, List.length_map] at hlt
  have hnone := landing_after_eq_none_iff ((measuresOf options source).take line) width
  rw [← hview, List.map_take, ← lineWidths_eq] at hnone
  rw [lineEvents_eq_map htab hfull hline, htokens, ← hnone]
  rcases before.view.settle_tokens_cases width with
    ⟨hlanding, htokens⟩ | ⟨closed, landing, hlanding, hdedent, htokens, hindent, hmisdent⟩
  · left
    obtain ⟨hfirst, hzero⟩ := hnone.1 hlanding
    exact ⟨hfirst, hzero, by rw [htokens]; rfl⟩
  · right
    refine ⟨by simp [hlanding], closed, landing, hdedent, ?_, hindent, hmisdent⟩
    rw [htokens, List.map_append, List.map_replicate]
    rfl

/-- The tokens that are no dedents count the lines with content, but for a first one
without indentation. -/
theorem countP_ne_dedent_tokens
    (htab : options.tabWidth ≠ 0)
    (hfull : traceOf source options = .ok full) :
    full.tokens.countP (· ≠ .dedent) +
        (if (lineWidths options source).reduceOption.head? = some 0 then 1 else 0) =
      (lineWidths options source).reduceOption.length := by
  have hcount := StateView.countP_ne_dedent_tokensOver (v := IndentState.initial.view) rfl rfl
    (measuresOf options source)
  rw [tokens_of_traceOf htab hfull, StateView.tokensToEnd, List.countP_append,
    countP_ne_dedent_replicate, Nat.add_zero, lineWidths_eq, List.reduceOption_map,
    List.head?_map, List.length_map]
  exact hcount

end

/-- How the events of a scan of lines of some widths stand between its checkpoints. -/
structure LinedUp
    (trace : Trace)
    (widths : List (Option UInt32)) :
    Prop where
  length_checkpoints : trace.checkpoints.length = widths.length
  emitted_mono : trace.checkpoints.Pairwise (·.emitted ≤ ·.emitted)
  emitted_le : ∀ checkpoint ∈ trace.checkpoints, checkpoint.emitted ≤ trace.events.length
  /-- Between two checkpoints stand events of one line. -/
  line_eq : ∀ line < widths.length, ∀ event ∈ trace.lineEvents line, event.line = line + 1
  blank : ∀ line, widths[line]? = some none → trace.lineEvents line = []
  /-- A line with content has dedents and then one other token, unless it is the first one
  and has no indentation. -/
  content : ∀ line width, widths[line]? = some (some width) →
    ¬ ((∀ earlier ∈ widths.take line, earlier = none) ∧ width = 0) →
    ∃ closed landing,
      landing ≠ .dedent ∧
      trace.lineEvents line =
        List.replicate closed ⟨line + 1, .dedent⟩ ++ [⟨line + 1, landing⟩] ∧
      (landing = .indent → closed = 0) ∧
      (landing = .misdent → closed ≠ 0)
  first : ∀ line, widths[line]? = some (some 0) →
    (∀ earlier ∈ widths.take line, earlier = none) → trace.lineEvents line = []
  /-- Behind the last checkpoint stand the dedents that close the levels open there. -/
  closing : ∃ state,
    trace.stateBefore? widths.length = some state ∧
    trace.lineEvents widths.length = List.replicate state.depth ⟨widths.length, .dedent⟩
  line_mono : trace.events.Pairwise (·.line ≤ ·.line)
  countP_ne_dedent :
    trace.tokens.countP (· ≠ .dedent) + (if widths.reduceOption.head? = some 0 then 1 else 0) =
      widths.reduceOption.length

/-- The events of a scan stand between its checkpoints line by line: those of a line carry
its number, a blank line has none, and a line with content has dedents and then one other
token, unless it is the first one and has no indentation.  The end of the source closes
what is still open.  So the line numbers never decrease, and the tokens that are no dedents
count the lines with content. -/
theorem events_line_up_of_traceOf
    {options : Options}
    (htab : options.tabWidth ≠ 0)
    (source : List Char) :
    ∃ full,
      traceOf source options = .ok full ∧
      LinedUp full (lineWidths options source) := by
  have hfull := traceOf_eq htab source
  generalize Cursor.start.traceLines options (Line.ofSource source) = full at hfull
  have hlength : (lineWidths options source).length = (measuresOf options source).length := by
    rw [lineWidths_eq, List.length_map]
  have hcheckpoints := length_checkpoints_eq htab hfull
  refine ⟨full, hfull, ?_, ?_, ?_, ?_, ?_, ?_, ?_, ?_, ?_, ?_⟩
  · rw [hcheckpoints, hlength]
  · rw [List.pairwise_iff_getElem]
    intro first second hfirst hsecond hlt
    rw [emitted_eq_tokensBefore (List.getElem?_eq_getElem hfirst),
      emitted_eq_tokensBefore (List.getElem?_eq_getElem hsecond)]
    exact tokensBefore_mono htab hfull (by omega) (by omega)
  · intro checkpoint hcheckpoint
    obtain ⟨index, hindex⟩ := List.getElem?_of_mem hcheckpoint
    obtain ⟨hlt, -⟩ := List.getElem?_eq_some_iff.1 hindex
    have hle := tokensBefore_le_length htab hfull (show index + 1 ≤ _ by omega)
    rw [Trace.tokens, List.length_map] at hle
    rwa [emitted_eq_tokensBefore hindex]
  · intro line hline event hevent
    rw [hlength] at hline
    rw [lineEvents_eq_map htab hfull hline] at hevent
    obtain ⟨token, -, rfl⟩ := List.mem_map.1 hevent
    rfl
  · intro line hwidth
    exact lineEvents_of_blank htab hfull hwidth
  · intro line width hwidth hnot
    rcases lineEvents_of_content htab hfull hwidth with ⟨hfirst, hzero, -⟩ | ⟨-, hevents⟩
    · exact absurd ⟨hfirst, hzero⟩ hnot
    · exact hevents
  · intro line hwidth hfirst
    rcases lineEvents_of_content htab hfull hwidth with ⟨-, -, hevents⟩ | ⟨hnot, -⟩
    · exact hevents
    · exact absurd ⟨hfirst, rfl⟩ hnot
  · rw [hlength]
    exact lineEvents_end htab hfull
  · rw [traceOf_eq htab, Except.ok.injEq] at hfull
    rw [← hfull]
    exact Cursor.start.pairwise_line_traceLines options _
  · exact countP_ne_dedent_tokens htab hfull

/-- A first line without indentation, a line between two levels, and levels that are closed
behind a blank last line. -/
theorem events_line_up_of_traceOf_blank_end :
    ∃ full,
      traceOf "a\n  b\n      c\n   d\n\n    e\n\n".toList {} = .ok full ∧
      full.events =
        [⟨2, .indent⟩, ⟨3, .indent⟩, ⟨4, .dedent⟩, ⟨4, .misdent⟩, ⟨6, .indent⟩, ⟨7, .dedent⟩,
          ⟨7, .dedent⟩] ∧
      LinedUp full [some 0, some 2, some 6, some 3, none, some 4, none] := by
  obtain ⟨full, hfull, hlines⟩ :=
    @events_line_up_of_traceOf {} (by decide) "a\n  b\n      c\n   d\n\n    e\n\n".toList
  have hwidths :
      lineWidths {} "a\n  b\n      c\n   d\n\n    e\n\n".toList =
        [some 0, some 2, some 6, some 3, none, some 4, none] := by
    decide +kernel
  have hevents :
      (traceOf "a\n  b\n      c\n   d\n\n    e\n\n".toList {}).map Trace.events =
        .ok
          [⟨2, .indent⟩, ⟨3, .indent⟩, ⟨4, .dedent⟩, ⟨4, .misdent⟩, ⟨6, .indent⟩, ⟨7, .dedent⟩,
            ⟨7, .dedent⟩] := by
    decide +kernel
  rw [hfull] at hevents
  rw [hwidths] at hlines
  exact ⟨full, hfull, Except.ok.inj hevents, hlines⟩

end Layout
end Offside
