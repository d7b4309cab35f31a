import Offside.Proofs.StateView

/-!
# Stacks that grow inward

While each level is opened by a line wider than all levels around it, the open
levels increase from the outermost to the innermost.  Then what a line with
content does to them can be said without the stack: it keeps the levels that are
not wider than itself, wherever they stand, and either opens one more or closes
as many as are wider (`StateView.settle_cases`).

A line keeps the levels increasing (`Increasing.afterLine`).
-/

namespace Offside
namespace StateView

open Layout (Token Measure)

/-- Whether the open levels increase from the outermost to the innermost. -/
def Increasing (v : StateView) : Prop :=
  v.levels.Pairwise (· < ·)

theorem increasing_initial : IndentState.initial.view.Increasing :=
  List.Pairwise.nil

/-- When no level is wider than a line, the line leaves them all. -/
theorem filter_le_eq_self
    {levels : List UInt32}
    {width : UInt32}
    (h : ∀ level ∈ levels, level ≤ width) :
    levels.filter (· ≤ width) = levels := by
  rw [List.filter_eq_self]
  simpa using h

theorem countP_lt_eq_zero
    {levels : List UInt32}
    {width : UInt32}
    (h : ∀ level ∈ levels, level ≤ width) :
    levels.countP (width < ·) = 0 := by
  rw [List.countP_eq_zero]
  simpa using h

variable {v : StateView}

/-- No level is wider than the innermost one. -/
theorem Increasing.le_currentWidth
    (h : v.Increasing)
    {level : UInt32}
    (hlevel : level ∈ v.levels) :
    level ≤ v.currentWidth := by
  obtain ⟨outer, top, hlevels⟩ :=
    (List.eq_nil_or_concat v.levels).resolve_left (List.ne_nil_of_mem hlevel)
  rw [List.concat_eq_append] at hlevels
  have htop : v.currentWidth = top := by
    rw [currentWidth, hlevels, List.getLast?_concat]
    rfl
  rw [Increasing, hlevels, List.pairwise_append] at h
  rw [hlevels] at hlevel
  rw [htop]
  rcases List.mem_append.1 hlevel with hlevel | hlevel
  · exact UInt32.le_of_lt (h.2.2 level hlevel top (List.mem_singleton_self top))
  · rw [List.mem_singleton.1 hlevel]
    exact UInt32.le_refl top

/-- The outer levels increase as all levels do. -/
theorem Increasing.of_append
    {u : StateView}
    {inside : List UInt32}
    (h : v.Increasing)
    (hlevels : v.levels = u.levels ++ inside) :
    u.Increasing := by
  rw [Increasing, hlevels] at h
  exact (List.pairwise_append.1 h).1

/-- The levels that a line leaves open are those that are not wider than it, wherever
they stand. -/
theorem Increasing.kept_eq_filter
    (h : v.Increasing)
    (width : UInt32) :
    v.kept width = v.levels.filter (· ≤ width) := by
  have hsplit := v.kept_append_closedBy width
  have hafter : (v.withLevels (v.kept width)).Increasing := h.of_append hsplit.symm
  have hkept : ∀ level ∈ v.kept width, level ≤ width := fun level hlevel =>
    UInt32.le_trans (hafter.le_currentWidth hlevel) (v.currentWidth_kept_le width)
  have hclosed : (v.closedBy width).filter (· ≤ width) = [] := by
    rw [List.filter_eq_nil_iff]
    intro level hlevel
    simpa using List.mem_rtakeWhile_imp hlevel
  calc
    v.kept width = (v.kept width).filter (· ≤ width) := (filter_le_eq_self hkept).symm
    _ = (v.kept width ++ v.closedBy width).filter (· ≤ width) := by
      rw [List.filter_append, hclosed, List.append_nil]
    _ = v.levels.filter (· ≤ width) := by rw [hsplit]

/-- The levels that it closes are those that are wider. -/
theorem Increasing.length_closedBy
    (h : v.Increasing)
    (width : UInt32) :
    (v.closedBy width).length = v.levels.countP (width < ·) := by
  have hlength := congrArg List.length (v.kept_append_closedBy width)
  have hcount :=
    List.length_eq_countP_add_countP (fun level => decide (level ≤ width)) (l := v.levels)
  rw [List.length_append, h.kept_eq_filter, ← List.countP_eq_length_filter] at hlength
  simp only [decide_eq_true_eq, UInt32.not_le] at hcount
  omega

/-- What a line with content does.  Either it is wider than every level and opens
one, or it closes the levels that are wider and opens none. -/
theorem settle_cases
    (h : v.Increasing)
    (width : UInt32) :
    ((∀ level ∈ v.levels, level < width) ∧
      (v.settle width).1 = [.indent] ∧
      (v.settle width).2.levels = v.levels ++ [width]) ∨
    (∃ landing,
      Token.indent ∉ landing ∧
      Token.dedent ∉ landing ∧
      (v.settle width).1 =
        List.replicate (v.levels.countP (width < ·)) .dedent ++ landing ∧
      (v.settle width).2.levels = v.levels.filter (· ≤ width)) := by
  rw [settle_eq]
  by_cases hopens : v.landing width = some .indent
  · obtain ⟨-, hwider, -⟩ := landing_eq_indent_iff.1 hopens
    have hle := UInt32.le_of_lt hwider
    left
    rw [hopens, if_pos rfl, (v.closedBy_eq_nil_iff width).2 hle, kept_eq_levels hle]
    refine ⟨fun level hlevel => ?_, rfl, rfl⟩
    exact UInt32.lt_of_le_of_lt (h.le_currentWidth hlevel) hwider
  · right
    rw [if_neg hopens, List.append_nil, h.length_closedBy, h.kept_eq_filter]
    refine ⟨(v.landing width).toList, ?_, ?_, rfl, rfl⟩
    · rwa [Option.mem_toList]
    · rw [Option.mem_toList]
      exact landing_ne_dedent

/-- A line keeps the levels increasing. -/
theorem Increasing.afterLine
    (h : v.Increasing)
    (measure : Option Measure) :
    (v.afterLine measure).2.Increasing := by
  cases measure with
  | none => exact h
  | some measure =>
      show (v.settle measure.width).2.levels.Pairwise (· < ·)
      rcases settle_cases h measure.width with ⟨hwider, -, hlevels⟩ | ⟨_, -, -, -, hlevels⟩
      · rw [hlevels, List.pairwise_append]
        refine ⟨h, List.pairwise_singleton _ _, ?_⟩
        intro level hlevel width hwidth
        rw [List.mem_singleton.1 hwidth]
        exact hwider level hlevel
      · rw [hlevels]
        exact h.filter _

end StateView
end Offside
