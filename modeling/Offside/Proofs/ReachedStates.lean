import Offside.Proofs.LineReading
import Offside.Proofs.OpenLevels

/-!
# States that a scan comes to

Not every state can be reached by scanning a source from its start.  Before the
first line with content no level is open and nothing is measured.  From then on the
open levels increase from the outermost to the innermost, none of them is zero, and
none is wider than the last line with content, whose content does not start before
the blanks at its start end (`Established`).

The levels are bounded by the width that is remembered, line by line
(`StateView.Grounded.afterLine`).  What is remembered, on the other hand, is what
`LineReading` says, so that only the two measures of a line have to be compared.
-/

namespace Offside
namespace StateView

open Layout (Measure)

/-- The open levels increase, and lie between zero and the width of the last line. -/
structure Grounded (v : StateView) : Prop where
  increasing : v.Increasing
  one_le : ∀ level ∈ v.levels, 1 ≤ level
  le_lastWidth : ∀ level ∈ v.levels, min (level.toNat : Int) 2147483647 ≤ v.lastWidth.toInt

namespace Grounded

variable {v : StateView}

theorem initial : IndentState.initial.view.Grounded :=
  ⟨increasing_initial, List.forall_mem_nil _, List.forall_mem_nil _⟩

/-- A line with content opens no level of width zero, and leaves none that is wider. -/
theorem mem_levels_settle
    (h : v.Grounded)
    {width level : UInt32}
    (hlevel : level ∈ (v.settle width).2.levels) :
    1 ≤ level ∧ level ≤ width := by
  rcases v.settle_shape width with
    ⟨hwider, -, -, hlevels⟩ | ⟨closed, -, -, -, -, hlevels, -, hcurrent⟩
  · rw [hlevels] at hlevel
    rcases List.mem_append.1 hlevel with hlevel | hlevel
    · have hle := UInt32.le_trans (h.increasing.le_currentWidth hlevel) (UInt32.le_of_lt hwider)
      exact ⟨h.one_le level hlevel, hle⟩
    · rw [List.mem_singleton.1 hlevel]
      refine ⟨?_, UInt32.le_refl width⟩
      have hone : (1 : UInt32).toNat = 1 := rfl
      rw [UInt32.lt_iff_toNat_lt] at hwider
      rw [UInt32.le_iff_toNat_le]
      omega
  · have hafter := h.increasing.of_append hlevels
    refine ⟨h.one_le level ?_, UInt32.le_trans (hafter.le_currentWidth hlevel) hcurrent⟩
    rw [hlevels]
    exact List.mem_append_left closed hlevel

/-- A line keeps the levels between zero and the width of the last line. -/
theorem afterLine
    (h : v.Grounded)
    (measure : Option Measure) :
    (v.afterLine measure).2.Grounded := by
  cases measure with
  | none => exact ⟨h.increasing, h.one_le, h.le_lastWidth⟩
  | some measure =>
      refine ⟨h.increasing.afterLine (some measure), ?_, ?_⟩
      · intro level hlevel
        exact (h.mem_levels_settle hlevel).1
      · intro level hlevel
        have hle := UInt32.le_iff_toNat_le.1 (h.mem_levels_settle hlevel).2
        show min (level.toNat : Int) 2147483647 ≤ (Layout.Columns.remembered measure.width).toInt
        rw [Layout.Columns.toInt_remembered]
        omega

/-- So do any number of lines. -/
theorem after
    (h : v.Grounded)
    (measures : List (Option Measure)) :
    (v.after measures).Grounded := by
  induction measures generalizing v with
  | nil => exact h
  | cons measure rest ih => exact ih (h.afterLine measure)

/-- No level is open as long as nothing is measured. -/
theorem levels_eq_nil
    (h : v.Grounded)
    (hlast : v.lastWidth = unmeasured) :
    v.levels = [] := by
  rw [List.eq_nil_iff_forall_not_mem]
  intro level hlevel
  have hle := h.le_lastWidth level hlevel
  have hunmeasured : unmeasured.toInt = -1 := rfl
  rw [hlast, hunmeasured] at hle
  omega

end Grounded
end StateView

namespace Layout

/-- What is remembered of some lines when none of them has content. -/
theorem Remembers.of_all_blank
    {options : Options}
    {lines : List TextLine}
    {v : StateView}
    (h : Remembers options lines v)
    (hblank : ∀ line ∈ lines, line.isBlank options.commentsAreBlank = true) :
    v.lastWidth = unmeasured ∧
      v.lastColumn = unmeasured ∧
      v.blankRun.toInt = min (lines.length : Int) 2147483647 := by
  have hunmeasured : unmeasured.toInt = -1 := rfl
  have hnone : lastContent? options.commentsAreBlank lines = none := by
    rw [lastContent?, List.getLast?_eq_none_iff, List.filter_eq_nil_iff]
    intro line hline
    simp [hblank line hline]
  have hall : lines.rtakeWhile (TextLine.isBlank options.commentsAreBlank) = lines := by
    rw [List.rtakeWhile_eq_self_iff]
    exact hblank
  have hwidth := h.lastWidth
  have hcolumn := h.lastColumn
  have hrun := h.blankRun
  rw [hnone] at hwidth hcolumn
  rw [hall] at hrun
  exact ⟨Int32.toInt_inj.1 hwidth, Int32.toInt_inj.1 hcolumn, hrun⟩

/-- What is remembered of some lines when one of them has content: its width, which
is not negative, and a column that is not less. -/
theorem Remembers.of_content
    {options : Options}
    (htab : options.tabWidth ≠ 0)
    {lines : List TextLine}
    {v : StateView}
    (h : Remembers options lines v)
    (hcontent : ∃ line ∈ lines, line.isBlank options.commentsAreBlank = false) :
    0 ≤ v.lastWidth.toInt ∧ v.lastWidth.toInt ≤ v.lastColumn.toInt := by
  obtain ⟨line, hline, hcontent⟩ := hcontent
  have hmem : line ∈ lines.filter fun line => !line.isBlank options.commentsAreBlank := by
    simp [hline, hcontent]
  obtain ⟨last, hlast⟩ :
      ∃ last, lastContent? options.commentsAreBlank lines = some last :=
    ⟨_, List.getLast?_eq_some_getLast (List.ne_nil_of_mem hmem)⟩
  have hnot : last.isBlank options.commentsAreBlank = false := by
    have hlastMem := List.mem_of_getLast? hlast
    simpa using (List.mem_filter.1 hlastMem).2
  cases hbefore : last.beforeLastContent? options.commentsAreBlank with
  | none =>
      rw [(last.beforeLastContent?_eq_none_iff options.commentsAreBlank).1 hbefore] at hnot
      cases hnot
  | some before =>
      obtain ⟨more, hmore⟩ := TextLine.exists_append_of_beforeLastContent? hbefore
      have hle := Columns.expanded_le_append (Columns.toNat_pos htab) last.indentation more
      have hwidth := h.lastWidth
      have hcolumn := h.lastColumn
      rw [hlast, Option.map_some, rememberedAs] at hwidth
      rw [hlast, Option.bind_some, hbefore, Option.map_some, rememberedAs, hmore] at hcolumn
      omega

/-- What a state holds before the first line with content. -/
structure Untouched (s : IndentState) : Prop where
  levels : s.levels = []
  lastWidth : s.lastWidth = unmeasured
  lastColumn : s.lastColumn = unmeasured
  one_le_blankRun : 1 ≤ s.blankRun.toInt

/-- What a state holds from the first line with content on. -/
structure Established (s : IndentState) : Prop where
  increasing : s.levels.Pairwise (· < ·)
  one_le : ∀ level ∈ s.levels, 1 ≤ level
  length_le : s.levels.length ≤ maxDepth
  currentWidth_le : min (s.currentWidth.toNat : Int) 2147483647 ≤ s.lastWidth.toInt
  lastWidth_le : s.lastWidth.toInt ≤ s.lastColumn.toInt
  lastWidth_ne : s.lastWidth ≠ unmeasured
  lastColumn_ne : s.lastColumn ≠ unmeasured
  blankRun_nonneg : 0 ≤ s.blankRun.toInt

section

variable {options : Options} {lines : List TextLine} {s : IndentState}

theorem Remembers.untouched
    (h : Remembers options lines s.view)
    (hgrounded : s.view.Grounded)
    (hne : lines ≠ [])
    (hblank : ∀ line ∈ lines, line.isBlank options.commentsAreBlank = true) :
    Untouched s := by
  obtain ⟨hwidth, hcolumn, hrun⟩ := h.of_all_blank hblank
  refine ⟨hgrounded.levels_eq_nil hwidth, hwidth, hcolumn, ?_⟩
  have hpos := List.length_pos_iff.2 hne
  rw [IndentState.view_blankRun] at hrun
  omega

theorem Remembers.established
    (htab : options.tabWidth ≠ 0)
    (h : Remembers options lines s.view)
    (hgrounded : s.view.Grounded)
    (hcontent : ∃ line ∈ lines, line.isBlank options.commentsAreBlank = false) :
    Established s := by
  obtain ⟨hnonneg, hle⟩ := h.of_content htab hcontent
  have hrun := h.blankRun
  have hunmeasured : unmeasured.toInt = -1 := rfl
  rw [IndentState.view_lastWidth] at hnonneg hle
  rw [IndentState.view_lastColumn] at hle
  rw [IndentState.view_blankRun] at hrun
  refine ⟨hgrounded.increasing, hgrounded.one_le, ?_, ?_, hle, ?_, ?_, by omega⟩
  · rw [IndentState.levels_length]
    exact s.depth_le
  · rw [IndentState.currentWidth, IndentState.top?_eq_getLast?]
    cases hlast : s.levels.getLast? with
    | none =>
        have hzero : ((none : Option UInt32).getD 0).toNat = 0 := rfl
        rw [hzero]
        omega
    | some top => exact hgrounded.le_lastWidth top (List.mem_of_getLast? hlast)
  · intro hwidth
    rw [hwidth, hunmeasured] at hnonneg
    omega
  · intro hcolumn
    rw [hcolumn, hunmeasured] at hle
    omega

/-- Every checkpoint of the scan of a source spells a state that is untouched when
all lines up to it are blank, and established when one of them has content.  So its
bytes are never those of the initial state, which are none, and the number of blank
lines never has the value that stands for no measure. -/
theorem reached_states_of_traceOf
    (htab : options.tabWidth ≠ 0)
    (source : List Char) :
    ∃ full,
      traceOf source options = .ok full ∧
      ∀ (index : Nat) (checkpoint : Checkpoint),
        full.checkpoints[index]? = some checkpoint →
        let lines := (TextLine.split source).take (index + 1)
        checkpoint.state ≠ [] ∧
        ∃ state,
          IndentState.decode checkpoint.state = .ok state ∧
          state.blankRun ≠ unmeasured ∧
          ((∀ line ∈ lines, line.isBlank options.commentsAreBlank = true) → Untouched state) ∧
          ((∃ line ∈ lines, line.isBlank options.commentsAreBlank = false) →
            Established state) := by
  have hfull := traceOf_eq htab source
  refine ⟨_, hfull, ?_⟩
  intro index checkpoint hcheckpoint
  obtain ⟨-, -, -, state, hdecode, hview⟩ := checkpoint_of_traceOf htab hfull hcheckpoint
  obtain ⟨hindex, -⟩ := List.getElem?_eq_some_iff.1 hcheckpoint
  rw [length_checkpoints_of_traceOf htab hfull] at hindex
  rw [measuresOf, ← List.map_take] at hview
  have hne : (TextLine.split source).take (index + 1) ≠ [] := by
    rw [Ne, List.take_eq_nil_iff]
    rintro (hzero | hnil)
    · cases hzero
    · rw [hnil] at hindex
      cases hindex
  generalize (TextLine.split source).take (index + 1) = lines at hview hne ⊢
  have hremembers : Remembers options lines state.view := by
    rw [hview]
    exact remembers_after htab lines
  have hgrounded : state.view.Grounded := by
    rw [hview]
    exact StateView.Grounded.initial.after _
  have huntouched := hremembers.untouched hgrounded hne
  have hestablished := hremembers.established htab hgrounded
  have hunmeasured : unmeasured.toInt = -1 := rfl
  refine ⟨?_, state, hdecode, ?_, huntouched, hestablished⟩
  · intro hnil
    rw [hnil, IndentState.decode_nil, Except.ok.injEq] at hdecode
    subst hdecode
    by_cases hblank : ∀ line ∈ lines, line.isBlank options.commentsAreBlank = true
    · exact absurd (huntouched hblank).one_le_blankRun (by decide)
    · exact absurd rfl (hestablished (by simpa using hblank)).lastWidth_ne
  · intro hrun
    have hblankRun := hremembers.blankRun
    rw [IndentState.view_blankRun, hrun, hunmeasured] at hblankRun
    omega

end

/-- A blank line, and a line whose last word stands behind its indentation. -/
theorem reached_states_of_traceOf_indented :
    ∃ full first second before after,
      traceOf "\n\t a b\n".toList {} = .ok full ∧
      full.checkpoints = [first, second] ∧
      IndentState.decode first.state = .ok before ∧
      Untouched before ∧
      IndentState.decode second.state = .ok after ∧
      after.levels = [5] ∧
      Established after := by
  obtain ⟨full, hfull, hstates⟩ := @reached_states_of_traceOf {} (by decide) "\n\t a b\n".toList
  have hrecorded :
      (traceOf "\n\t a b\n".toList {}).map Trace.checkpoints =
        .ok
          [⟨1, 1, 0, [255, 255, 255, 255, 1, 0, 0, 0, 255, 255, 255, 255]⟩,
            ⟨2, 7, 1, [5, 0, 0, 0, 5, 0, 0, 0, 0, 0, 0, 0, 7, 0, 0, 0]⟩] := by
    decide +kernel
  have hlevels :
      (IndentState.decode [5, 0, 0, 0, 5, 0, 0, 0, 0, 0, 0, 0, 7, 0, 0, 0]).map
        IndentState.levels = .ok [5] := by
    decide +kernel
  rw [hfull] at hrecorded
  have hcheckpoints := Except.ok.inj hrecorded
  obtain ⟨-, before, hbefore, -, huntouched, -⟩ := hstates 0 _ (by rw [hcheckpoints]; rfl)
  obtain ⟨-, after, hafter, -, -, hestablished⟩ := hstates 1 _ (by rw [hcheckpoints]; rfl)
  rw [hafter] at hlevels
  exact
    ⟨full, _, _, before, after, hfull, hcheckpoints, hbefore, huntouched (by decide +kernel),
      hafter, Except.ok.inj hlevels, hestablished (by decide +kernel)⟩

end Layout
end Offside
