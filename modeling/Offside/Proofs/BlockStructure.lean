import Offside.Proofs.BlockRun
import Offside.Proofs.WidthsDecide

/-!
# The block structure of a source

Which levels are open behind a line can be read off the widths of the lines and
the indents among their tokens: those whose line opened a block, and behind which
no line with content is narrower (`Trace.openWidths`).  A line with content closes
the open levels that are wider, the end of the source closes the rest, and a block
runs from its indent to the first narrower line with content (`BlockStructure`).

The levels themselves are kept in a stack, which the layout policy only touches at
its inner end.  A line does to the widths that are open what it does to that stack
(`Trace.openWidths_succ`), so the two agree behind every line
(`levels_after_take`).
-/

namespace Offside
namespace Layout

/-- The widths of the lines of a source; a blank line has none. -/
def lineWidths
    (options : Options)
    (source : List Char) :
    List (Option UInt32) :=
  (TextLine.split source).map (TextLine.width? options)

theorem lineWidths_eq
    (options : Options)
    (source : List Char) :
    lineWidths options source =
      (measuresOf options source).map (Option.map Measure.width) := by
  rw [lineWidths, measuresOf, List.map_map]
  exact List.map_congr_left fun line _ => (line.width_measure? options).symm

/-- The line that closes a block opened by a line of some width: the first line
with content behind it that is narrower, or else the end of the source. -/
def closingLine
    (widths : List (Option UInt32))
    (line : Nat)
    (width : UInt32) :
    Nat :=
  line + 1 + (widths.drop (line + 1)).findIdx fun later => later.any (· < width)

namespace Trace

/-- The number of tokens before a line, where lines are counted from zero.  The end
of the source stands behind the last line as one more line. -/
def tokensBefore (trace : Trace) : Nat → Nat
  | 0 => 0
  | line + 1 => (trace.checkpoints[line]?.map Checkpoint.emitted).getD trace.tokens.length

/-- The tokens of a line. -/
def lineTokens
    (trace : Trace)
    (line : Nat) :
    List Token :=
  (trace.tokens.take (trace.tokensBefore (line + 1))).drop (trace.tokensBefore line)

/-- Whether the token at a position is one of those of a line. -/
def OnLine
    (trace : Trace)
    (position line : Nat) :
    Prop :=
  trace.tokensBefore line ≤ position ∧ position < trace.tokensBefore (line + 1)

/-- The widths of those of the first lines that opened a block, and behind which
none of them that has content is narrower. -/
def openWidths
    (trace : Trace)
    (widths : List (Option UInt32))
    (count : Nat) :
    List UInt32 :=
  (List.range count).filterMap fun line =>
    widths[line]?.join.filter fun width =>
      (trace.lineTokens line).contains .indent &&
        ((widths.take count).drop (line + 1)).all fun later => later.all (width ≤ ·)

/-- One more line closes the widths that are wider, and may open its own. -/
theorem openWidths_succ
    (trace : Trace)
    {widths : List (Option UInt32)}
    {line : Nat}
    {width? : Option UInt32}
    (h : widths[line]? = some width?) :
    trace.openWidths widths (line + 1) =
      (trace.openWidths widths line).filter (fun width => width?.all (width ≤ ·)) ++
        (width?.filter fun _ => (trace.lineTokens line).contains .indent).toList := by
  obtain ⟨hline, -⟩ := List.getElem?_eq_some_iff.1 h
  have htake : widths.take (line + 1) = widths.take line ++ [width?] := by
    rw [List.take_add_one, h]
    rfl
  rw [openWidths, List.range_succ, List.filterMap_append, openWidths, List.filter_filterMap]
  congr 1
  · refine List.filterMap_congr fun earlier hearlier => ?_
    have hlt : earlier < line := List.mem_range.1 hearlier
    have hdrop :
        (widths.take (line + 1)).drop (earlier + 1) =
          (widths.take line).drop (earlier + 1) ++ [width?] := by
      rw [htake, List.drop_append_of_le_length]
      rw [List.length_take]
      omega
    rw [hdrop, Option.filter_filter]
    congr 1
    funext width
    simp only [List.all_append, List.all_cons, List.all_nil, Bool.and_true]
    ac_rfl
  · have hnone : (widths.take (line + 1)).drop (line + 1) = [] := by
      rw [List.drop_eq_nil_iff, List.length_take]
      omega
    rw [List.filterMap_eq_flatMap_toList, List.flatMap_singleton, hnone, h]
    simp

end Trace

/-- The blocks of a scan of lines of some widths. -/
structure BlockStructure
    (trace : Trace)
    (widths : List (Option UInt32)) :
    Prop where
  length_checkpoints : trace.checkpoints.length = widths.length
  /-- Behind each line the checkpoint holds the levels that are open. -/
  levels : ∀ line checkpoint, trace.checkpoints[line]? = some checkpoint →
    ∃ state,
      IndentState.decode checkpoint.state = .ok state ∧
      state.levels = trace.openWidths widths (line + 1)
  /-- A line with content closes the open levels that are wider. -/
  dedents : ∀ line width, widths[line]? = some (some width) →
    (trace.lineTokens line).count .dedent =
      (trace.openWidths widths line).countP (width < ·)
  /-- The end of the source closes the levels that are still open, and does nothing else. -/
  closing :
    trace.lineTokens widths.length =
      List.replicate (trace.openWidths widths widths.length).length .dedent
  opened : ∀ first, trace.tokens[first]? = some .indent →
    ∃! last, Closes trace.tokens first last
  closed : ∀ last, trace.tokens[last]? = some .dedent →
    ∃! first, Closes trace.tokens first last
  /-- Of two blocks, the one that opens later opens behind the other or closes inside it. -/
  nested : ∀ first last first' last',
    Closes trace.tokens first last → Closes trace.tokens first' last' → first < first' →
    last < first' ∨ last' < last
  /-- A block ends on the first line with content that is narrower than its first line,
  or at the end of the source. -/
  ends : ∀ first last, Closes trace.tokens first last →
    ∃ line width,
      widths[line]? = some (some width) ∧
      trace.OnLine first line ∧
      trace.OnLine last (closingLine widths line width)

section

open IndentState (initial)

variable {options : Options} {source : List Char} {full : Trace}

theorem length_checkpoints_eq
    (htab : options.tabWidth ≠ 0)
    (hfull : traceOf source options = .ok full) :
    full.checkpoints.length = (measuresOf options source).length := by
  rw [length_checkpoints_of_traceOf htab hfull, measuresOf, List.length_map]

theorem tokensBefore_of_le
    (htab : options.tabWidth ≠ 0)
    (hfull : traceOf source options = .ok full)
    {line : Nat}
    (hline : line ≤ (measuresOf options source).length) :
    full.tokensBefore line =
      (initial.view.tokensOver ((measuresOf options source).take line)).length := by
  cases line with
  | zero => rfl
  | succ line =>
      have hlt : line < full.checkpoints.length := by
        rw [length_checkpoints_eq htab hfull]
        exact hline
      have hcheckpoint := List.getElem?_eq_getElem hlt
      obtain ⟨-, -, hemitted, -⟩ := checkpoint_of_traceOf htab hfull hcheckpoint
      rw [Trace.tokensBefore, hcheckpoint, ← hemitted]
      rfl

theorem tokensBefore_end
    (htab : options.tabWidth ≠ 0)
    (hfull : traceOf source options = .ok full) :
    full.tokensBefore ((measuresOf options source).length + 1) = full.tokens.length := by
  rw [Trace.tokensBefore, ← length_checkpoints_eq htab hfull, List.getElem?_eq_none (Nat.le_refl _)]
  rfl

/-- The tokens of a line are those that the run gives for it. -/
theorem lineTokens_of_getElem?
    (htab : options.tabWidth ≠ 0)
    (hfull : traceOf source options = .ok full)
    {line : Nat}
    {measure : Option Measure}
    (hline : (measuresOf options source)[line]? = some measure) :
    full.lineTokens line =
      ((initial.view.after ((measuresOf options source).take line)).afterLine measure).1 := by
  obtain ⟨hlt, -⟩ := List.getElem?_eq_some_iff.1 hline
  have htake :
      (measuresOf options source).take (line + 1) =
        (measuresOf options source).take line ++ [measure] := by
    rw [List.take_add_one, hline]
    rfl
  have htokens :
      full.tokens =
        initial.view.tokensOver ((measuresOf options source).take (line + 1)) ++
          (initial.view.after ((measuresOf options source).take (line + 1))).tokensToEnd
            ((measuresOf options source).drop (line + 1)) := by
    rw [tokens_of_traceOf htab hfull, ← StateView.tokensToEnd_append, List.take_append_drop]
  rw [Trace.lineTokens, tokensBefore_of_le htab hfull hlt, tokensBefore_of_le htab hfull hlt.le,
    htokens, List.take_left, htake, StateView.tokensOver_append, List.drop_left]
  exact List.append_nil _

/-- Behind the last line the open levels are closed. -/
theorem lineTokens_end
    (htab : options.tabWidth ≠ 0)
    (hfull : traceOf source options = .ok full) :
    full.lineTokens (measuresOf options source).length =
      List.replicate (initial.view.after (measuresOf options source)).levels.length .dedent := by
  rw [Trace.lineTokens, tokensBefore_end htab hfull, tokensBefore_of_le htab hfull (Nat.le_refl _),
    List.take_length, List.take_length, tokens_of_traceOf htab hfull, StateView.tokensToEnd,
    List.drop_left]

/-- The levels that the run keeps in its stack are the widths that are open. -/
theorem levels_after_take
    (htab : options.tabWidth ≠ 0)
    (hfull : traceOf source options = .ok full)
    {count : Nat}
    (hcount : count ≤ (measuresOf options source).length) :
    (initial.view.after ((measuresOf options source).take count)).levels =
      full.openWidths (lineWidths options source) count := by
  induction count with
  | zero => rfl
  | succ line ih =>
      obtain ⟨measure, hline⟩ : ∃ measure, (measuresOf options source)[line]? = some measure :=
        ⟨_, List.getElem?_eq_getElem hcount⟩
      have hwidth :
          (lineWidths options source)[line]? = some (measure.map Measure.width) := by
        rw [lineWidths_eq, List.getElem?_map, hline]
        rfl
      have hincreasing :=
        StateView.increasing_initial.after ((measuresOf options source).take line)
      rw [full.openWidths_succ hwidth, ← ih (Nat.le_of_succ_le hcount),
        lineTokens_of_getElem? htab hfull hline, List.take_add_one, hline, StateView.after_append]
      cases measure with
      | none => simp [StateView.afterLine]
      | some measure =>
          refine (StateView.levels_afterContent hincreasing measure).trans ?_
          congr 1
          split
          next hopens => simp [Option.filter, hopens]
          next hopens => simp [Option.filter, hopens]

/-- The block that an indent opens reaches to the line that closes it. -/
theorem exists_closes_onLine
    (htab : options.tabWidth ≠ 0)
    (hfull : traceOf source options = .ok full)
    {first : Nat}
    (hindent : full.tokens[first]? = some .indent) :
    ∃ last,
      Closes full.tokens first last ∧
      ∃ line width,
        (lineWidths options source)[line]? = some (some width) ∧
        full.OnLine first line ∧
        full.OnLine last (closingLine (lineWidths options source) line width) := by
  rw [tokens_of_traceOf htab hfull] at hindent
  obtain ⟨before, measure, rest, last, hmeasures, hcloses, hfirst, hopens, hstart, hstop⟩ :=
    StateView.increasing_initial.exists_closes_of_indent hindent
  have hcloser :
      closingLine (lineWidths options source) before.length measure.width =
        before.length + 1 + rest.findIdx (StateView.narrower measure.width) := by
    have hnarrower :
        (fun later => Option.any (· < measure.width) later) ∘ Option.map Measure.width =
          StateView.narrower measure.width := by
      funext later
      cases later <;> rfl
    rw [closingLine, lineWidths_eq, ← List.map_drop, hmeasures, List.append_cons,
      List.drop_left' (by simp), List.findIdx_map, hnarrower]
  have htake (count : Nat) :
      (measuresOf options source).take (before.length + 1 + count) =
        before ++ some measure :: rest.take count := by
    rw [hmeasures, Nat.add_assoc, List.take_length_add_append, Nat.add_comm 1,
      List.take_succ_cons]
  have hlength : (measuresOf options source).length = before.length + 1 + rest.length := by
    rw [hmeasures, List.length_append, List.length_cons]
    omega
  have hle : rest.findIdx (StateView.narrower measure.width) ≤ rest.length :=
    List.findIdx_le_length
  refine ⟨last, by rwa [tokens_of_traceOf htab hfull], before.length, measure.width, ?_,
    ⟨?_, ?_⟩, ?_, ?_⟩
  · rw [lineWidths_eq, List.getElem?_map, hmeasures,
      List.getElem?_append_right (Nat.le_refl _), Nat.sub_self]
    rfl
  · rw [tokensBefore_of_le htab hfull (by omega), hmeasures, List.take_left]
    exact hfirst.ge
  · rw [tokensBefore_of_le htab hfull (by omega), ← Nat.add_zero (before.length + 1), htake]
    exact hopens
  · rw [hcloser, tokensBefore_of_le htab hfull (by omega), htake]
    exact hstart
  · rw [hcloser]
    rcases Nat.lt_or_eq_of_le hle with hlt | heq
    · rw [tokensBefore_of_le htab hfull (by omega), Nat.add_assoc _ _ 1, htake]
      exact hstop hlt
    · -- no line is narrower, and the end of the source closes the block
      rw [heq, ← hlength, tokensBefore_end htab hfull, tokens_of_traceOf htab hfull]
      exact (List.getElem?_eq_some_iff.1 hcloses.closes).1

/-- The scan of a source has checkpoints whose levels are the widths that are still
open, lines that close what is wider than they are, and blocks that pair up, nest,
and end on the first line that is narrower. -/
theorem block_structure_of_traceOf
    (htab : options.tabWidth ≠ 0)
    (source : List Char) :
    ∃ full,
      traceOf source options = .ok full ∧
      BlockStructure full (lineWidths options source) := by
  have hfull := traceOf_eq htab source
  generalize Cursor.start.traceLines options (Line.ofSource source) = full at hfull
  have hlength : (lineWidths options source).length = (measuresOf options source).length := by
    rw [lineWidths_eq, List.length_map]
  refine ⟨full, hfull, ?_, ?_, ?_, ?_, ?_, ?_, ?_, ?_⟩
  · rw [length_checkpoints_eq htab hfull, hlength]
  · intro line checkpoint hcheckpoint
    obtain ⟨-, -, -, state, hdecode, hview⟩ := checkpoint_of_traceOf htab hfull hcheckpoint
    obtain ⟨hlt, -⟩ := List.getElem?_eq_some_iff.1 hcheckpoint
    rw [length_checkpoints_eq htab hfull] at hlt
    refine ⟨state, hdecode, ?_⟩
    rw [← IndentState.view_levels, hview, levels_after_take htab hfull hlt]
  · intro line width hwidth
    rw [lineWidths_eq, List.getElem?_map, Option.map_eq_some_iff] at hwidth
    obtain ⟨_, hline, hmeasure⟩ := hwidth
    obtain ⟨measure, rfl, rfl⟩ := Option.map_eq_some_iff.1 hmeasure
    obtain ⟨hlt, -⟩ := List.getElem?_eq_some_iff.1 hline
    rw [lineTokens_of_getElem? htab hfull hline, ← levels_after_take htab hfull hlt.le]
    exact StateView.count_dedent_afterContent (StateView.increasing_initial.after _) measure
  · rw [hlength, lineTokens_end htab hfull, ← levels_after_take htab hfull (Nat.le_refl _),
      List.take_length]
  · intro first hindent
    obtain ⟨last, hcloses, -⟩ := exists_closes_onLine htab hfull hindent
    exact ⟨last, hcloses, fun _ hcloses' => hcloses'.last_unique hcloses⟩
  · intro last hdedent
    have hopen : 0 ≤ height full.tokens (last + 1) := by
      rw [tokens_of_traceOf htab hfull]
      exact StateView.height_tokensToEnd StateView.increasing_initial _ _
    obtain ⟨first, hcloses⟩ := exists_closes_of_dedent hdedent hopen
    exact ⟨first, hcloses, fun _ hcloses' => hcloses'.first_unique hcloses⟩
  · intro first last first' last' hcloses hcloses'
    exact hcloses.nested hcloses'
  · intro first last hcloses
    obtain ⟨last', hcloses', hlines⟩ := exists_closes_onLine htab hfull hcloses.opens
    rw [hcloses.last_unique hcloses']
    exact hlines

end

/-- A blank line inside a block, and a line that closes two blocks and is wider than
the one around them. -/
theorem block_structure_of_traceOf_misdented :
    ∃ full,
      traceOf "a\n\tb\n\n\t  c\n  d\n    e".toList {} = .ok full ∧
      full.tokens = [.indent, .indent, .dedent, .dedent, .misdent, .indent, .dedent] ∧
      full.openWidths [some 0, some 4, none, some 6, some 2, some 4] 4 = [4, 6] ∧
      BlockStructure full [some 0, some 4, none, some 6, some 2, some 4] := by
  obtain ⟨full, hfull, hblocks⟩ :=
    @block_structure_of_traceOf {} (by decide) "a\n\tb\n\n\t  c\n  d\n    e".toList
  have hwidths :
      lineWidths {} "a\n\tb\n\n\t  c\n  d\n    e".toList =
        [some 0, some 4, none, some 6, some 2, some 4] := by
    decide +kernel
  have hopen :
      (traceOf "a\n\tb\n\n\t  c\n  d\n    e".toList {}).toOption.map (fun full =>
          (full.tokens, full.openWidths [some 0, some 4, none, some 6, some 2, some 4] 4)) =
        some ([.indent, .indent, .dedent, .dedent, .misdent, .indent, .dedent], [4, 6]) := by
    decide +kernel
  rw [hfull, Except.toOption, Option.map_some, Option.some.injEq, Prod.mk.injEq] at hopen
  rw [hwidths] at hblocks
  exact ⟨full, hfull, hopen.1, hopen.2, hblocks⟩

end Layout
end Offside
