import Offside.Proofs.Blocks
import Offside.Proofs.MeasureRun

/-!
# Levels are opened and closed by tokens

Every level that a run opens comes with an indent, and every level that it closes
with a dedent.  The number of open levels can therefore be kept by counting tokens,
from whatever levels a run starts with: they may stand in any order, as they do when
they were read from arbitrary bytes.

On the way over one line the count stays between the number of levels before the
line and that behind it (`StateView.height_afterLine`).  So it never drops below zero
nor rises above the greatest depth on the way over any number of lines, and it comes
down to zero at the end (`DepthAccount`).
-/

namespace Offside
namespace StateView

open Layout

/-- The tokens of a line go from the number of levels before it to that behind it,
and never beyond either. -/
theorem height_afterLine
    (v : StateView)
    (measure : Option Measure) :
    balance (v.afterLine measure).1 =
        ((v.afterLine measure).2.levels.length : Int) - v.levels.length ∧
      ∀ count,
        min 0 (((v.afterLine measure).2.levels.length : Int) - v.levels.length) ≤
            height (v.afterLine measure).1 count ∧
          height (v.afterLine measure).1 count ≤
            max 0 (((v.afterLine measure).2.levels.length : Int) - v.levels.length) := by
  cases measure with
  | none =>
      show balance [] = (v.levels.length : Int) - v.levels.length ∧
        ∀ count,
          min 0 ((v.levels.length : Int) - v.levels.length) ≤ height [] count ∧
            height [] count ≤ max 0 ((v.levels.length : Int) - v.levels.length)
      simp [height]
  | some measure =>
      show balance (v.settle measure.width).1 =
          ((v.settle measure.width).2.levels.length : Int) - v.levels.length ∧
        ∀ count,
          min 0 (((v.settle measure.width).2.levels.length : Int) - v.levels.length) ≤
              height (v.settle measure.width).1 count ∧
            height (v.settle measure.width).1 count ≤
              max 0 (((v.settle measure.width).2.levels.length : Int) - v.levels.length)
      rcases v.settle_shape measure.width with
        ⟨-, -, htokens, hlevels⟩ | ⟨closed, landing, hindent, hdedent, htokens, hlevels, -, -⟩
      · rw [htokens, hlevels, List.length_append, List.length_singleton]
        refine ⟨?_, ?_⟩
        · rw [balance_cons, balance_nil, Token.weight]
          omega
        · intro count
          cases count with
          | zero =>
              rw [height_zero]
              omega
          | succ count =>
              rw [height_of_length_le (by simp), balance_cons, balance_nil, Token.weight]
              omega
      · have hlength := congrArg List.length hlevels
        rw [List.length_append] at hlength
        rw [htokens]
        refine ⟨?_, ?_⟩
        · rw [balance_append, balance_replicate_dedent, balance_eq_zero hindent hdedent]
          omega
        · intro count
          rw [height_replicate_dedent_append _ hindent hdedent]
          omega

/-- A line opens no level for which there is no room. -/
theorem length_levels_afterLine_le
    {v : StateView}
    (h : v.levels.length ≤ maxDepth)
    (measure : Option Measure) :
    (v.afterLine measure).2.levels.length ≤ maxDepth := by
  cases measure with
  | none => exact h
  | some measure =>
      show (v.settle measure.width).2.levels.length ≤ maxDepth
      rcases v.settle_shape measure.width with
        ⟨-, hroom, -, hlevels⟩ | ⟨closed, landing, -, -, -, hlevels, -, -⟩
      · rw [hlevels, List.length_append, List.length_singleton]
        exact hroom
      · have hlength := congrArg List.length hlevels
        rw [List.length_append] at hlength
        omega

/-- The tokens of some lines account for the levels that are open behind them. -/
theorem length_levels_after
    (v : StateView)
    (measures : List (Option Measure)) :
    ((v.after measures).levels.length : Int) =
      v.levels.length + balance (v.tokensOver measures) := by
  induction measures generalizing v with
  | nil => exact (Int.add_zero _).symm
  | cons measure rest ih =>
      obtain ⟨hline, -⟩ := v.height_afterLine measure
      rw [after_cons, ih, tokensOver, balance_append, hline]
      omega

/-- The tokens up to the end close all levels. -/
theorem balance_tokensToEnd
    (v : StateView)
    (measures : List (Option Measure)) :
    (v.levels.length : Int) + balance (v.tokensToEnd measures) = 0 := by
  have hlevels := v.length_levels_after measures
  rw [tokensToEnd, balance_append, balance_replicate_dedent]
  omega

/-- On the way to the end there are never fewer levels than none, nor more than there
is room for. -/
theorem depth_bounds_tokensToEnd
    {v : StateView}
    (h : v.levels.length ≤ maxDepth)
    (measures : List (Option Measure))
    (count : Nat) :
    0 ≤ (v.levels.length : Int) + height (v.tokensToEnd measures) count ∧
      (v.levels.length : Int) + height (v.tokensToEnd measures) count ≤ maxDepth := by
  induction measures generalizing v count with
  | nil =>
      have hclosing :
          height (List.replicate v.levels.length .dedent ++ []) count =
            -((min count v.levels.length : Nat) : Int) :=
        height_replicate_dedent_append _ List.not_mem_nil List.not_mem_nil count
      rw [List.append_nil] at hclosing
      show 0 ≤ (v.levels.length : Int) + height (List.replicate v.levels.length .dedent) count ∧
        (v.levels.length : Int) + height (List.replicate v.levels.length .dedent) count ≤ maxDepth
      rw [hclosing]
      omega
  | cons measure rest ih =>
      obtain ⟨hline, hheight⟩ := v.height_afterLine measure
      have hnext := length_levels_afterLine_le h measure
      rw [tokensToEnd_cons, height_append]
      by_cases hcount : count ≤ (v.afterLine measure).1.length
      · have hwithin := hheight count
        rw [Nat.sub_eq_zero_of_le hcount, height_zero]
        omega
      · have hbehind := ih hnext (count - (v.afterLine measure).1.length)
        rw [height_of_length_le (Nat.le_of_not_le hcount), hline]
        omega

end StateView

namespace Layout

/-- The number of levels that are open behind some tokens, when so many were open
before them. -/
def depthBehind
    (depth : Nat)
    (tokens : List Token) :
    Int :=
  depth + tokens.count .indent - tokens.count .dedent

theorem depthBehind_eq
    (depth : Nat)
    (tokens : List Token) :
    depthBehind depth tokens = depth + balance tokens := by
  rw [depthBehind, balance_eq_count]
  omega

/-- The tokens of a trace account for the levels that are open, in a scan that starts
with so many open levels and so many events before it. -/
structure DepthAccount
    (depth emitted : Nat)
    (trace : Trace) :
    Prop where
  /-- At a checkpoint as many levels are open as its bytes spell. -/
  checkpoints : ∀ checkpoint ∈ trace.checkpoints,
    ∃ state,
      IndentState.decode checkpoint.state = .ok state ∧
      emitted ≤ checkpoint.emitted ∧
      checkpoint.emitted - emitted ≤ trace.tokens.length ∧
      (state.depth : Int) =
        depthBehind depth (trace.tokens.take (checkpoint.emitted - emitted))
  finish : depthBehind depth trace.tokens = 0
  bounds : ∀ count,
    0 ≤ depthBehind depth (trace.tokens.take count) ∧
      depthBehind depth (trace.tokens.take count) ≤ maxDepth

/-- A scan over some lines accounts for its levels, from any place on. -/
theorem Cursor.depthAccount
    (options : Options)
    (c : Cursor)
    (lines : List Line) :
    DepthAccount c.state.depth c.emitted (c.traceLines options lines) := by
  have hdepth : c.state.depth = c.state.view.levels.length := c.state.levels_length.symm
  have htokens := c.tokens_traceLines options lines
  refine ⟨?_, ?_, ?_⟩
  · intro checkpoint hcheckpoint
    obtain ⟨index, hindex⟩ := List.getElem?_of_mem hcheckpoint
    obtain ⟨-, -, -, hemitted, state, hdecode, hview⟩ := checkpoint_of_traceLines hindex
    generalize lines.map (Line.measure? options) = measures at htokens hemitted hview
    have hposition :
        checkpoint.emitted - c.emitted =
          (c.state.view.tokensOver (measures.take (index + 1))).length := by
      rw [hemitted]
      exact Nat.add_sub_cancel_left ..
    have hsplit :
        (c.traceLines options lines).tokens =
          c.state.view.tokensOver (measures.take (index + 1)) ++
            (c.state.view.after (measures.take (index + 1))).tokensToEnd
              (measures.drop (index + 1)) := by
      rw [htokens, ← StateView.tokensToEnd_append, List.take_append_drop]
    refine ⟨state, hdecode, ?_, ?_, ?_⟩
    · rw [hemitted]
      exact Nat.le_add_right _ _
    · rw [hposition, hsplit, List.length_append]
      exact Nat.le_add_right _ _
    · rw [hposition, hsplit, List.take_left, depthBehind_eq, hdepth,
        ← StateView.length_levels_after, ← hview, IndentState.view_levels,
        IndentState.levels_length]
  · rw [htokens, depthBehind_eq, hdepth]
    exact StateView.balance_tokensToEnd _ _
  · intro count
    have hle : c.state.view.levels.length ≤ maxDepth := by
      rw [← hdepth]
      exact c.state.depth_le
    rw [htokens, depthBehind_eq, hdepth]
    exact StateView.depth_bounds_tokensToEnd hle _ count

/-- The tokens of every scan account for the levels that are open: those of a whole
source from no levels on, and those of a scan that is taken up at any accepted
checkpoint from the levels on that its bytes spell, in whatever order they stand. -/
theorem depth_account_of_scan
    {options : Options}
    (htab : options.tabWidth ≠ 0)
    (source : List Char) :
    (∃ full, traceOf source options = .ok full ∧ DepthAccount 0 0 full) ∧
    ∀ (checkpoint : Checkpoint) (scan : Scan),
      Scan.ofCheckpoint source options checkpoint = .ok scan →
      ∃ state,
        IndentState.decode checkpoint.state = .ok state ∧
        DepthAccount state.depth checkpoint.emitted scan.trace := by
  refine ⟨⟨_, traceOf_eq htab source, Cursor.start.depthAccount options _⟩, ?_⟩
  intro checkpoint scan hscan
  obtain ⟨-, after, state, -, -, -, hdecode, htrace⟩ := Scan.exists_cut_of_ofCheckpoint hscan
  refine ⟨state, hdecode, ?_⟩
  rw [htrace]
  exact (Cursor.ofCheckpoint checkpoint state).depthAccount options (Line.ofSource after)

/-- A scan that is taken up with levels that narrow opens one more, and closes them
all at once. -/
theorem depth_account_of_scan_unreached :
    ∃ scan,
      Scan.ofCheckpoint "x\n\n   a\n b".toList {}
        ⟨3, 2, 10, [4, 0, 0, 0, 2, 0, 0, 0, 0, 0, 0, 128, 255, 255, 255, 127, 255, 255, 255, 255]⟩ =
          .ok scan ∧
      scan.trace.tokens = [.indent, .dedent, .dedent, .dedent, .misdent] ∧
      DepthAccount 2 10 scan.trace := by
  have h :
      ∃ scan,
        Scan.ofCheckpoint "x\n\n   a\n b".toList {}
          ⟨3, 2, 10,
            [4, 0, 0, 0, 2, 0, 0, 0, 0, 0, 0, 128, 255, 255, 255, 127, 255, 255, 255, 255]⟩ =
          .ok scan :=
    ⟨_, Scan.ofCheckpoint_eq_ok_iff.2 ⟨by decide, by decide +kernel, _, rfl, rfl⟩⟩
  have htokens :
      (traceFrom "x\n\n   a\n b".toList {}
        ⟨3, 2, 10,
          [4, 0, 0, 0, 2, 0, 0, 0, 0, 0, 0, 128, 255, 255, 255, 127, 255, 255, 255, 255]⟩).map
        Trace.tokens =
        .ok [.indent, .dedent, .dedent, .dedent, .misdent] := by
    decide +kernel
  have hdepth :
      (IndentState.decode
        [4, 0, 0, 0, 2, 0, 0, 0, 0, 0, 0, 128, 255, 255, 255, 127, 255, 255, 255, 255]).map
        IndentState.depth =
        .ok 2 := by
    decide +kernel
  obtain ⟨scan, hscan⟩ := h
  rw [traceFrom, hscan] at htokens
  obtain ⟨-, hresumed⟩ :=
    @depth_account_of_scan {} (by decide) "x\n\n   a\n b".toList
  obtain ⟨state, hdecode, haccount⟩ := hresumed _ _ hscan
  rw [hdecode] at hdepth
  rw [show state.depth = 2 from Except.ok.inj hdepth] at haccount
  exact ⟨scan, hscan, Except.ok.inj htokens, haccount⟩

end Layout
end Offside
