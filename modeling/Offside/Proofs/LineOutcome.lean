import Mathlib.Data.List.ReduceOption
import Mathlib.Tactic.Tauto
import Offside.Proofs.BlockStructure
import Offside.Proofs.ReachedStates

/-!
# What a line with content comes to

The layout policy looks at the innermost level only, and closes levels one by one.
In the states that a scan comes to, what a line gives rise to can be said of the open
levels as a set: how many of them are wider than the line, whether the line is wider
than all of them, and whether it is as wide as one of them.

Behind its dedents a line with content has at most one other token, its landing.
Three lemmas tell which token that is (`Increasing.landing_eq_misdent_iff_mem`,
`Increasing.landing_eq_indent_iff_forall` and `Grounded.landing_eq_none_iff_zero`), and
`line_outcomes_of_traceOf` says so of the lines of a source, by the states that the
checkpoints around them spell.
-/

namespace Offside
namespace StateView

open Layout (Token Measure)

variable {v : StateView} {width : UInt32}

/-- The width that a line is compared with is that of a level, or zero. -/
theorem currentWidth_mem_or (v : StateView) :
    v.levels = [] ∧ v.currentWidth = 0 ∨ v.currentWidth ∈ v.levels := by
  rw [currentWidth]
  cases hlast : v.levels.getLast? with
  | none => exact .inl ⟨List.getLast?_eq_none_iff.1 hlast, rfl⟩
  | some top => exact .inr (List.mem_of_getLast? hlast)

/-- Whether a line stands at the width of a misdented line before it shows in the
numbers alone. -/
theorem atMisdentedWidth_iff :
    v.atMisdentedWidth width = true ↔
      v.lastWidth.toInt = min (width.toNat : Int) 2147483647 ∧
        min (v.currentWidth.toNat : Int) 2147483647 < v.lastWidth.toInt := by
  rw [atMisdentedWidth, Bool.and_eq_true, decide_eq_true_iff, beq_iff_eq, Int32.lt_iff_toInt_lt,
    ← Int32.toInt_inj, Layout.Columns.toInt_remembered, Layout.Columns.toInt_remembered]
  omega

namespace Increasing

/-- A line is wider than the innermost level when it is wider than every level. -/
theorem currentWidth_lt_iff
    (h : v.Increasing) :
    v.currentWidth < width ↔ 0 < width ∧ ∀ level ∈ v.levels, level < width := by
  constructor
  · intro hlt
    refine ⟨UInt32.lt_of_le_of_lt (UInt32.le_iff_toNat_le.2 (Nat.zero_le _)) hlt, ?_⟩
    intro level hlevel
    exact UInt32.lt_of_le_of_lt (h.le_currentWidth hlevel) hlt
  · rintro ⟨hpos, hwider⟩
    rcases v.currentWidth_mem_or with ⟨-, hzero⟩ | hmem
    · rwa [hzero]
    · exact hwider _ hmem

/-- A line is narrower than the innermost level when it is narrower than some level. -/
theorem lt_currentWidth_iff
    (h : v.Increasing) :
    width < v.currentWidth ↔ ∃ level ∈ v.levels, width < level := by
  constructor
  · intro hlt
    rcases v.currentWidth_mem_or with ⟨-, hzero⟩ | hmem
    · rw [hzero, UInt32.lt_iff_toNat_lt] at hlt
      exact absurd hlt (Nat.not_lt_zero _)
    · exact ⟨_, hmem, hlt⟩
  · rintro ⟨level, hlevel, hlt⟩
    exact UInt32.lt_of_lt_of_le hlt (h.le_currentWidth hlevel)

/-- A line that closes levels lands on an open one when it is as wide as one of the
levels before it, or has no width and closes them all. -/
theorem currentWidth_kept_eq_iff
    (h : v.Increasing) :
    (v.withLevels (v.kept width)).currentWidth = width ↔ width = 0 ∨ width ∈ v.levels := by
  have hle := v.currentWidth_kept_le width
  have hmem : width ∈ v.levels ↔ width ∈ v.kept width := by
    simp [h.kept_eq_filter]
  rw [hmem]
  constructor
  · intro heq
    rcases (v.withLevels (v.kept width)).currentWidth_mem_or with ⟨-, hzero⟩ | hcurrent
    · exact .inl (heq.symm.trans hzero)
    · rw [heq] at hcurrent
      exact .inr hcurrent
  · rintro (rfl | hwidth)
    · exact UInt32.le_antisymm hle (UInt32.le_iff_toNat_le.2 (Nat.zero_le _))
    · have hafter : (v.withLevels (v.kept width)).Increasing :=
        h.of_append (v.kept_append_closedBy width).symm
      exact UInt32.le_antisymm hle (hafter.le_currentWidth hwidth)

theorem landing_eq_misdent_iff_mem
    (h : v.Increasing) :
    v.landing width = some .misdent ↔
      (∃ level ∈ v.levels, width < level) ∧ width ≠ 0 ∧ width ∉ v.levels := by
  rw [landing_eq_misdent_iff, h.lt_currentWidth_iff, Ne, h.currentWidth_kept_eq_iff, not_or]

theorem landing_eq_indent_iff_forall
    (h : v.Increasing) :
    v.landing width = some .indent ↔
      0 < width ∧
      (∀ level ∈ v.levels, level < width) ∧
      v.levels.length < maxDepth ∧
      ¬ (v.lastWidth.toInt = min (width.toNat : Int) 2147483647 ∧
        min (v.currentWidth.toNat : Int) 2147483647 < v.lastWidth.toInt) := by
  rw [landing_eq_indent_iff, ← Bool.not_eq_true, atMisdentedWidth_iff, h.currentWidth_lt_iff]
  tauto

end Increasing

/-- Only a first line without indentation has no token at all. -/
theorem Grounded.landing_eq_none_iff_zero
    (h : v.Grounded) :
    v.landing width = none ↔ v.lastWidth = unmeasured ∧ width = 0 := by
  rw [landing_eq_none_iff, and_comm, and_congr_right_iff]
  intro hlast
  have hzero : v.currentWidth = 0 := by
    rw [currentWidth, h.levels_eq_nil hlast]
    rfl
  rw [hzero, eq_comm]

/-- In all other cases the line goes on in the block that is open. -/
theorem landing_eq_newline
    (hmisdent : v.landing width ≠ some .misdent)
    (hindent : v.landing width ≠ some .indent)
    (hnone : v.landing width ≠ none) :
    v.landing width = some .newline := by
  obtain ⟨token, htoken⟩ := Option.ne_none_iff_exists'.1 hnone
  cases token with
  | indent => exact absurd htoken hindent
  | dedent => exact absurd htoken landing_ne_dedent
  | newline => exact htoken
  | misdent => exact absurd htoken hmisdent

end StateView

namespace Layout

/-- The width of the last of some lines with content. -/
def lastWidth? (widths : List (Option UInt32)) : Option UInt32 :=
  widths.reduceOption.getLast?

theorem lastWidth?_eq_none_iff {widths : List (Option UInt32)} :
    lastWidth? widths = none ↔ ∀ width ∈ widths, width = none := by
  rw [lastWidth?, List.getLast?_eq_none_iff, List.reduceOption, List.filterMap_eq_nil_iff]
  rfl

/-- What is remembered of the width of the last line with content. -/
theorem toInt_lastWidth_after (measures : List (Option Measure)) :
    (IndentState.initial.view.after measures).lastWidth.toInt =
      rememberedAs ((lastWidth? (measures.map (Option.map Measure.width))).map UInt32.toNat) := by
  induction measures using List.reverseRecOn with
  | nil => rfl
  | append_singleton measures measure ih =>
      rw [StateView.after_append, List.map_append, lastWidth?, List.reduceOption_append]
      cases measure with
      | none =>
          rw [List.map_singleton, Option.map_none, List.reduceOption_singleton, Option.toList_none,
            List.append_nil]
          exact ih
      | some measure =>
          have hremembered := Columns.toInt_remembered measure.width
          rw [List.map_singleton, Option.map_some, List.reduceOption_singleton, Option.toList_some,
            List.getLast?_concat, Option.map_some, rememberedAs]
          show (Columns.remembered measure.width).toInt = _
          omega

theorem lastWidth_after_eq_unmeasured_iff (measures : List (Option Measure)) :
    (IndentState.initial.view.after measures).lastWidth = unmeasured ↔
      ∀ width ∈ measures.map (Option.map Measure.width), width = none := by
  have hvalue : unmeasured.toInt = -1 := rfl
  rw [← Int32.toInt_inj, toInt_lastWidth_after, hvalue, ← lastWidth?_eq_none_iff]
  cases lastWidth? (measures.map (Option.map Measure.width)) with
  | none => exact iff_of_true rfl rfl
  | some width =>
      simp only [Option.map_some, rememberedAs, reduceCtorEq, iff_false]
      omega

/-- Only the first line with content may have no token, and only without indentation. -/
theorem landing_after_eq_none_iff
    (measures : List (Option Measure))
    (width : UInt32) :
    (IndentState.initial.view.after measures).landing width = none ↔
      (∀ earlier ∈ measures.map (Option.map Measure.width), earlier = none) ∧ width = 0 := by
  rw [(StateView.Grounded.initial.after measures).landing_eq_none_iff_zero,
    lastWidth_after_eq_unmeasured_iff]

namespace Trace

/-- The state before a line, where lines are counted from zero: the initial one, or
what the checkpoint of the line before spells. -/
def stateBefore? (trace : Trace) : Nat → Option IndentState
  | 0 => some IndentState.initial
  | line + 1 =>
      trace.checkpoints[line]?.bind fun checkpoint =>
        (IndentState.decode checkpoint.state).toOption

/-- The same in a scan that starts in some other state. -/
def stateFrom?
    (start : IndentState)
    (trace : Trace) :
    Nat → Option IndentState
  | 0 => some start
  | line + 1 =>
      trace.checkpoints[line]?.bind fun checkpoint =>
        (IndentState.decode checkpoint.state).toOption

theorem stateFrom?_initial
    (trace : Trace)
    (line : Nat) :
    trace.stateFrom? IndentState.initial line = trace.stateBefore? line := by
  cases line <;> rfl

end Trace

/-- Before each line, and behind the last one, a scan from any place is in the state to which
the run over the lines before comes. -/
theorem Cursor.exists_stateFrom
    (options : Options)
    (c : Cursor)
    {text : List Char}
    {line : Nat}
    (hline : line ≤ (measuresOf options text).length) :
    ∃ state,
      (c.traceLines options (Line.ofSource text)).stateFrom? c.state line = some state ∧
      state.view = c.state.view.after ((measuresOf options text).take line) := by
  rw [measuresOf, ← Line.map_measure?_ofSource] at hline ⊢
  cases line with
  | zero => exact ⟨c.state, rfl, rfl⟩
  | succ line =>
      have hlt : line < (c.traceLines options (Line.ofSource text)).checkpoints.length := by
        rw [traceLines, length_checkpoints_walk]
        rwa [List.length_map] at hline
      obtain ⟨-, -, -, -, state, hdecode, hview⟩ :=
        checkpoint_of_traceLines (List.getElem?_eq_getElem hlt)
      refine ⟨state, ?_, hview⟩
      rw [Trace.stateFrom?, List.getElem?_eq_getElem hlt, Option.bind_some, hdecode]
      rfl

section

variable {options : Options} {source : List Char} {full : Trace} {line : Nat} {width : UInt32}

/-- Before each line, and behind the last one, the scan is in the state to which the
run over the lines before comes. -/
theorem exists_stateBefore
    (htab : options.tabWidth ≠ 0)
    (hfull : traceOf source options = .ok full)
    (hline : line ≤ (measuresOf options source).length) :
    ∃ state,
      full.stateBefore? line = some state ∧
      state.view = IndentState.initial.view.after ((measuresOf options source).take line) := by
  rw [traceOf_eq htab, Except.ok.injEq] at hfull
  subst hfull
  obtain ⟨state, hstate, hview⟩ := Cursor.start.exists_stateFrom options hline
  exact ⟨state, (Trace.stateFrom?_initial _ line).symm.trans hstate, hview⟩

/-- A line with content leads from the state before it to the state behind it by what its
width does to the open levels. -/
theorem exists_settle_of_width
    (htab : options.tabWidth ≠ 0)
    (hfull : traceOf source options = .ok full)
    (hwidth : (lineWidths options source)[line]? = some (some width)) :
    ∃ before after,
      full.stateBefore? line = some before ∧
      full.stateBefore? (line + 1) = some after ∧
      before.view = IndentState.initial.view.after ((measuresOf options source).take line) ∧
      full.lineTokens line = (before.view.settle width).1 ∧
      after.levels = (before.view.settle width).2.levels := by
  rw [lineWidths_eq, List.getElem?_map, Option.map_eq_some_iff] at hwidth
  obtain ⟨_, hline, hmeasure⟩ := hwidth
  obtain ⟨measure, rfl, rfl⟩ := Option.map_eq_some_iff.1 hmeasure
  obtain ⟨hlt, -⟩ := List.getElem?_eq_some_iff.1 hline
  obtain ⟨before, hbefore, hview⟩ := exists_stateBefore htab hfull hlt.le
  obtain ⟨after, hafter, hviewAfter⟩ := exists_stateBefore htab hfull hlt
  refine ⟨before, after, hbefore, hafter, hview, ?_, ?_⟩
  · rw [lineTokens_of_getElem? htab hfull hline, ← hview]
    rfl
  · rw [List.take_add_one, hline, Option.toList_some, StateView.after_append, ← hview] at hviewAfter
    exact congrArg StateView.levels hviewAfter

/-- What a line with content of some width comes to between two states.  The proposition
says whether it is the first one with content. -/
structure Outcome
    (before : IndentState)
    (isFirst : Prop)
    (width : UInt32)
    (landing : Option Token)
    (after : IndentState) :
    Prop where
  misdent_iff :
    landing = some .misdent ↔
      (∃ level ∈ before.levels, width < level) ∧ width ≠ 0 ∧ width ∉ before.levels
  /-- A line that is wider than every level opens one, unless there is no room or it seems
  to be as wide as a misdented line before it. -/
  indent_iff :
    landing = some .indent ↔
      0 < width ∧
      (∀ level ∈ before.levels, level < width) ∧
      before.levels.length < maxDepth ∧
      ¬ (before.lastWidth.toInt = min (width.toNat : Int) 2147483647 ∧
        min (before.currentWidth.toNat : Int) 2147483647 < before.lastWidth.toInt)
  none_iff : landing = none ↔ isFirst ∧ width = 0
  newline_of_ne :
    landing ≠ some .misdent → landing ≠ some .indent → landing ≠ none → landing = some .newline
  levels_after :
    after.levels =
      before.levels.filter (· ≤ width) ++ if landing = some .indent then [width] else []

/-- A line with content gives a dedent for each open level that is wider, and then at most
one other token, which the open levels and the width of the line before decide.  It leaves
the levels open that are not wider, and its own width when it opened one. -/
theorem line_outcomes_of_traceOf
    (htab : options.tabWidth ≠ 0)
    (source : List Char) :
    ∃ full,
      traceOf source options = .ok full ∧
      ∀ (line : Nat) (width : UInt32),
        (lineWidths options source)[line]? = some (some width) →
        ∃ before after landing,
          full.stateBefore? line = some before ∧
          full.stateBefore? (line + 1) = some after ∧
          full.lineTokens line =
            List.replicate (before.levels.countP (width < ·)) .dedent ++ landing.toList ∧
          Outcome before (∀ earlier ∈ (lineWidths options source).take line, earlier = none)
            width landing after := by
  have hfull := traceOf_eq htab source
  refine ⟨_, hfull, ?_⟩
  intro line width hwidth
  obtain ⟨before, after, hbefore, hafter, hview, htokens, hlevels⟩ :=
    exists_settle_of_width htab hfull hwidth
  have hincreasing : before.view.Increasing := by
    rw [hview]
    exact StateView.increasing_initial.after _
  rw [StateView.settle_eq] at htokens hlevels
  refine ⟨before, after, before.view.landing width, hbefore, hafter, ?_,
    hincreasing.landing_eq_misdent_iff_mem, ?_, ?_, StateView.landing_eq_newline, ?_⟩
  · rw [htokens, hincreasing.length_closedBy]
    rfl
  · rw [← IndentState.view_currentWidth]
    exact hincreasing.landing_eq_indent_iff_forall
  · rw [hview, landing_after_eq_none_iff, List.map_take, ← lineWidths_eq]
  · rw [hlevels, hincreasing.kept_eq_filter]
    rfl

end

/-- A line that closes one of two levels and falls between them. -/
theorem line_outcomes_of_traceOf_misdented :
    ∃ full before after,
      traceOf "a\n  b\n      c\n   d".toList {} = .ok full ∧
      full.stateBefore? 3 = some before ∧
      full.stateBefore? 4 = some after ∧
      before.levels = [2, 6] ∧
      full.lineTokens 3 = [.dedent, .misdent] ∧
      Outcome before (∀ earlier ∈ [some (0 : UInt32), some 2, some 6], earlier = none)
        3 (some .misdent) after := by
  obtain ⟨full, hfull, houtcomes⟩ :=
    @line_outcomes_of_traceOf {} (by decide) "a\n  b\n      c\n   d".toList
  have hwidths :
      lineWidths {} "a\n  b\n      c\n   d".toList = [some 0, some 2, some 6, some 3] := by
    decide +kernel
  have hlevels :
      (traceOf "a\n  b\n      c\n   d".toList {}).toOption.map (fun full =>
          ((full.stateBefore? 3).map IndentState.levels, full.lineTokens 3)) =
        some (some [2, 6], [.dedent, .misdent]) := by
    decide +kernel
  rw [hwidths] at houtcomes
  obtain ⟨before, after, landing, hbefore, hafter, htokens, houtcome⟩ := houtcomes 3 3 rfl
  rw [hfull, Except.toOption, Option.map_some, Option.some.injEq, Prod.mk.injEq, hbefore,
    Option.map_some, Option.some.injEq] at hlevels
  obtain ⟨hbeforeLevels, hline⟩ := hlevels
  have hlanding : landing = some .misdent := by
    have hcount : [2, 6].countP ((3 : UInt32) < ·) = 1 := by decide
    rw [hline, hbeforeLevels, hcount] at htokens
    cases landing with
    | none => simp at htokens
    | some token => simpa using htokens.symm
  subst hlanding
  exact ⟨full, before, after, hfull, hbefore, hafter, hbeforeLevels, hline, houtcome⟩

end Layout
end Offside
