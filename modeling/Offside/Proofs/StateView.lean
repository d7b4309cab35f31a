import Mathlib.Data.List.DropRight
import Offside.Layout.Policy

/-!
# What can be seen of an indentation state

The slots of a state that are not in use cannot be seen.  What can be seen is
the list of open levels and the three numbers about the lines before, and the
layout policy is repeated here on that view alone.

`IndentState.view_afterLine` says that a line does to the view of a state what
it does to the state, and that it gives rise to the same tokens.  Two states of
the same view therefore stay alike under any lines
(`IndentState.afterLine_of_view_eq`).

A line with content gives a dedent for each level that it closes, and behind them at
most one other token, its landing (`StateView.settle_eq`).  So it either opens one level
or closes some of the innermost ones, in whatever order the levels stand
(`StateView.settle_shape`).
-/

namespace Offside

/-- The open levels, outermost first, and the numbers about the lines before. -/
@[ext] structure StateView where
  levels : List UInt32
  lastWidth : Int32
  blankRun : Int32
  lastColumn : Int32
  deriving DecidableEq, Repr

namespace StateView

/-- The same numbers over other levels. -/
def withLevels
    (v : StateView)
    (levels : List UInt32) :
    StateView :=
  { v with levels }

@[simp] theorem withLevels_levels
    (v : StateView)
    (levels : List UInt32) :
    (v.withLevels levels).levels = levels := rfl

/-- The width that a line is compared with. -/
def currentWidth (v : StateView) : UInt32 :=
  v.levels.getLast?.getD 0

/-- Whether a line stands at the width of a misdented line before it. -/
def atMisdentedWidth
    (v : StateView)
    (width : UInt32) :
    Bool :=
  decide (Layout.Columns.remembered v.currentWidth < v.lastWidth)
    && v.lastWidth == Layout.Columns.remembered width

/-- The levels that a line does not close. -/
def kept
    (v : StateView)
    (width : UInt32) :
    List UInt32 :=
  v.levels.rdropWhile fun level => width < level

/-- The tokens of a line with content of a given width, and the view with the
levels that are open after it. -/
def settle
    (v : StateView)
    (width : UInt32) :
    List Layout.Token × StateView :=
  if v.atMisdentedWidth width then
    ([.newline], v)
  else if v.currentWidth < width then
    if v.levels.length < maxDepth then
      ([.indent], v.withLevels (v.levels ++ [width]))
    else
      ([.newline], v)
  else if width < v.currentWidth then
    let after := v.withLevels (v.kept width)
    let landing := if after.currentWidth = width then Layout.Token.newline else .misdent
    (List.replicate (v.levels.length - (v.kept width).length) .dedent ++ [landing], after)
  else if v.lastWidth = unmeasured then
    ([], v)
  else
    ([.newline], v)

/-- The tokens of a line with content, and the view after it. -/
def afterContent
    (v : StateView)
    (width column : UInt32) :
    List Layout.Token × StateView :=
  ((v.settle width).1,
    { (v.settle width).2 with
      lastWidth := Layout.Columns.remembered width
      blankRun := 0
      lastColumn := Layout.Columns.remembered column })

/-- The tokens of a line, and the view after it. -/
def afterLine (v : StateView) : Option Layout.Measure → List Layout.Token × StateView
  | some measure => v.afterContent measure.width measure.column
  | none => ([], { v with blankRun := Layout.Columns.increment v.blankRun })

/-- A line at the width of a misdented line before it is wider than the innermost level. -/
theorem currentWidth_lt_of_atMisdentedWidth
    {v : StateView}
    {width : UInt32}
    (h : v.atMisdentedWidth width = true) :
    v.currentWidth < width := by
  simp only [atMisdentedWidth, Bool.and_eq_true, decide_eq_true_eq, beq_iff_eq] at h
  obtain ⟨hlt, hlast⟩ := h
  rw [hlast, Int32.lt_iff_toInt_lt, Layout.Columns.toInt_remembered,
    Layout.Columns.toInt_remembered] at hlt
  rw [UInt32.lt_iff_toNat_lt]
  omega

/-- The levels that a line closes, which stand inside those that it keeps. -/
def closedBy
    (v : StateView)
    (width : UInt32) :
    List UInt32 :=
  v.levels.rtakeWhile fun level => width < level

theorem kept_append_closedBy
    (v : StateView)
    (width : UInt32) :
    v.kept width ++ v.closedBy width = v.levels :=
  List.rdropWhile_append_rtakeWhile

/-- Behind a line that closes levels the innermost one is not wider than the line. -/
theorem currentWidth_kept_le
    (v : StateView)
    (width : UInt32) :
    (v.withLevels (v.kept width)).currentWidth ≤ width := by
  by_cases hnil : v.kept width = []
  · rw [currentWidth, withLevels_levels, hnil]
    exact UInt32.le_iff_toNat_le.2 (Nat.zero_le _)
  · have hlast := List.rdropWhile_last_not (fun level => width < level) v.levels hnil
    rw [currentWidth, withLevels_levels, List.getLast?_eq_some_getLast hnil]
    exact UInt32.not_lt.1 fun hlt => hlast (decide_eq_true hlt)

/-- A line that is not narrower than the innermost level closes none. -/
theorem kept_eq_levels
    {v : StateView}
    {width : UInt32}
    (h : v.currentWidth ≤ width) :
    v.kept width = v.levels := by
  rw [kept, List.rdropWhile_eq_self_iff]
  intro hne hlt
  rw [currentWidth, List.getLast?_eq_some_getLast hne] at h
  exact UInt32.not_lt.2 h (of_decide_eq_true hlt)

/-- A line that is narrower than the innermost level closes some. -/
theorem closedBy_eq_nil_iff
    (v : StateView)
    (width : UInt32) :
    v.closedBy width = [] ↔ v.currentWidth ≤ width := by
  have hsplit := v.kept_append_closedBy width
  constructor
  · intro hnil
    have hle := v.currentWidth_kept_le width
    rw [hnil, List.append_nil] at hsplit
    rw [hsplit] at hle
    exact hle
  · intro hle
    rw [kept_eq_levels hle] at hsplit
    exact List.append_cancel_left (hsplit.trans (List.append_nil v.levels).symm)

/-- The token of a line with content that is no dedent, if there is one. -/
def landing
    (v : StateView)
    (width : UInt32) :
    Option Layout.Token :=
  if v.atMisdentedWidth width then
    some .newline
  else if v.currentWidth < width then
    if v.levels.length < maxDepth then some .indent else some .newline
  else if width < v.currentWidth then
    if (v.withLevels (v.kept width)).currentWidth = width then some .newline else some .misdent
  else if v.lastWidth = unmeasured then
    none
  else
    some .newline

/-- A line with content gives a dedent for each level that it closes and then at most
one other token, and its width becomes a level when that token is an indent. -/
theorem settle_eq
    (v : StateView)
    (width : UInt32) :
    v.settle width =
      (List.replicate (v.closedBy width).length .dedent ++ (v.landing width).toList,
        v.withLevels
          (v.kept width ++ if v.landing width = some .indent then [width] else [])) := by
  have hstays (hle : v.currentWidth ≤ width) :
      (v.closedBy width).length = 0 ∧ v.withLevels (v.kept width ++ []) = v := by
    rw [(v.closedBy_eq_nil_iff width).2 hle, kept_eq_levels hle, List.append_nil]
    exact ⟨rfl, rfl⟩
  rw [settle, landing]
  by_cases hmisdent : v.atMisdentedWidth width = true
  · obtain ⟨hnone, hsame⟩ :=
      hstays (UInt32.le_of_lt (currentWidth_lt_of_atMisdentedWidth hmisdent))
    rw [if_pos hmisdent, if_pos hmisdent, hnone, if_neg (by decide), hsame]
    rfl
  rw [if_neg hmisdent, if_neg hmisdent]
  by_cases hwider : v.currentWidth < width
  · obtain ⟨hnone, hsame⟩ := hstays (UInt32.le_of_lt hwider)
    rw [if_pos hwider, if_pos hwider, hnone]
    by_cases hroom : v.levels.length < maxDepth
    · rw [if_pos hroom, if_pos hroom, if_pos rfl, kept_eq_levels (UInt32.le_of_lt hwider)]
      rfl
    · rw [if_neg hroom, if_neg hroom, if_neg (by decide), hsame]
      rfl
  rw [if_neg hwider, if_neg hwider]
  by_cases hnarrower : width < v.currentWidth
  · have hlength : v.levels.length - (v.kept width).length = (v.closedBy width).length := by
      have hsplit := congrArg List.length (v.kept_append_closedBy width)
      rw [List.length_append] at hsplit
      omega
    rw [if_pos hnarrower, if_pos hnarrower, hlength]
    by_cases hlands : (v.withLevels (v.kept width)).currentWidth = width
    · simp [hlands]
    · simp [hlands]
  obtain ⟨hnone, hsame⟩ := hstays (UInt32.not_lt.1 hnarrower)
  rw [if_neg hnarrower, if_neg hnarrower, hnone]
  by_cases hfirst : v.lastWidth = unmeasured
  · rw [if_pos hfirst, if_pos hfirst, if_neg (by decide), hsame]
    rfl
  · rw [if_neg hfirst, if_neg hfirst, if_neg (by decide), hsame]
    rfl

section

variable {v : StateView} {width : UInt32}

theorem landing_eq_indent_iff :
    v.landing width = some .indent ↔
      v.atMisdentedWidth width = false ∧ v.currentWidth < width ∧ v.levels.length < maxDepth := by
  unfold landing
  split_ifs <;> grind

theorem landing_eq_misdent_iff :
    v.landing width = some .misdent ↔
      width < v.currentWidth ∧ (v.withLevels (v.kept width)).currentWidth ≠ width := by
  have hmisdent := @currentWidth_lt_of_atMisdentedWidth v width
  unfold landing
  split_ifs <;> grind

theorem landing_eq_none_iff :
    v.landing width = none ↔ v.currentWidth = width ∧ v.lastWidth = unmeasured := by
  have hmisdent := @currentWidth_lt_of_atMisdentedWidth v width
  unfold landing
  split_ifs <;> grind

theorem landing_ne_dedent : v.landing width ≠ some .dedent := by
  unfold landing
  split_ifs <;> simp

end

/-- What a line with content does to the open levels, in whatever order they stand.
Either it is wider than the innermost one and opens another, for which there is room,
or it closes the innermost ones that are wider and opens none. -/
theorem settle_shape
    (v : StateView)
    (width : UInt32) :
    (v.currentWidth < width ∧
      v.levels.length < maxDepth ∧
      (v.settle width).1 = [.indent] ∧
      (v.settle width).2.levels = v.levels ++ [width]) ∨
    (∃ closed landing,
      Layout.Token.indent ∉ landing ∧
      Layout.Token.dedent ∉ landing ∧
      (v.settle width).1 = List.replicate closed.length .dedent ++ landing ∧
      v.levels = (v.settle width).2.levels ++ closed ∧
      (∀ level ∈ closed, width < level) ∧
      (v.settle width).2.currentWidth ≤ width) := by
  rw [settle_eq]
  by_cases hopens : v.landing width = some .indent
  · obtain ⟨-, hwider, hroom⟩ := landing_eq_indent_iff.1 hopens
    have hle := UInt32.le_of_lt hwider
    left
    rw [hopens, if_pos rfl, (v.closedBy_eq_nil_iff width).2 hle, kept_eq_levels hle]
    exact ⟨hwider, hroom, rfl, rfl⟩
  · right
    rw [if_neg hopens, List.append_nil]
    refine ⟨v.closedBy width, (v.landing width).toList, ?_, ?_, rfl,
      (v.kept_append_closedBy width).symm, ?_, v.currentWidth_kept_le width⟩
    · rwa [Option.mem_toList]
    · rw [Option.mem_toList]
      exact landing_ne_dedent
    · intro level hlevel
      simpa using List.mem_rtakeWhile_imp hlevel

end StateView

namespace IndentState

/-- What can be seen of a state. -/
def view (s : IndentState) : StateView :=
  ⟨s.levels, s.lastWidth, s.blankRun, s.lastColumn⟩

@[simp] theorem view_levels (s : IndentState) : s.view.levels = s.levels := rfl

@[simp] theorem view_lastWidth (s : IndentState) : s.view.lastWidth = s.lastWidth := rfl

@[simp] theorem view_blankRun (s : IndentState) : s.view.blankRun = s.blankRun := rfl

@[simp] theorem view_lastColumn (s : IndentState) : s.view.lastColumn = s.lastColumn := rfl

/-- States are equal when the same can be seen of them. -/
theorem beq_iff_view_eq (s t : IndentState) : (s == t) = true ↔ s.view = t.view := by
  show
    (s.levels == t.levels
        && s.lastWidth == t.lastWidth
        && s.blankRun == t.blankRun
        && s.lastColumn == t.lastColumn) = true ↔ _
  simp [StateView.ext_iff, and_assoc]

theorem view_eq_iff {s t : IndentState} :
    s.view = t.view ↔
      s.levels = t.levels ∧
      s.lastWidth = t.lastWidth ∧
      s.blankRun = t.blankRun ∧
      s.lastColumn = t.lastColumn := by
  simp only [view, StateView.mk.injEq]

/-- States of which the same can be seen are printed alike. -/
theorem describe_eq_of_view_eq
    {s t : IndentState}
    (h : s.view = t.view) :
    s.describe = t.describe := by
  obtain ⟨hlevels, hwidth, hblank, hcolumn⟩ := view_eq_iff.1 h
  unfold describe
  rw [hlevels, hwidth, hblank, hcolumn]

theorem depth_eq_of_view_eq
    {s t : IndentState}
    (h : s.view = t.view) :
    s.depth = t.depth := by
  rw [← levels_length s, ← levels_length t]
  exact congrArg (fun v => v.levels.length) h

@[simp] theorem view_currentWidth (s : IndentState) : s.view.currentWidth = s.currentWidth := by
  rw [currentWidth, top?_eq_getLast?]
  rfl

@[simp] theorem view_atMisdentedWidth
    (s : IndentState)
    (width : UInt32) :
    s.view.atMisdentedWidth width = s.atMisdentedWidth width := by
  simp [StateView.atMisdentedWidth, atMisdentedWidth]

/-- Opening a level succeeds below the greatest depth and appends its width. -/
theorem push_cases
    (s : IndentState)
    (width : UInt32) :
    (s.view.levels.length < maxDepth ∧
      ∃ t, s.push width = .ok t ∧ t.view = s.view.withLevels (s.view.levels ++ [width])) ∨
    (¬ s.view.levels.length < maxDepth ∧ s.push width = .error (.full width maxDepth)) := by
  rw [view_levels, levels_length]
  by_cases h : s.depth < maxDepth
  · left
    have hpush : s.push width = .ok _ := dif_pos h
    exact ⟨h, _, hpush, StateView.ext (levels_of_push hpush) rfl rfl rfl⟩
  · right
    exact ⟨h, dif_neg h⟩

/-- Closing a level leaves all but the last width, and the three numbers. -/
theorem view_of_pop?
    {s t : IndentState}
    {width : UInt32}
    (h : s.pop? = some (width, t)) :
    s.view = t.view.withLevels (t.levels ++ [width]) := by
  have hlevels := levels_of_pop? h
  unfold pop? at h
  split at h
  next =>
    cases h
    exact StateView.ext hlevels rfl rfl rfl
  next => cases h

theorem levels_of_pop?_eq_none
    {s : IndentState}
    (h : s.pop? = none) :
    s.levels = [] := by
  apply List.eq_nil_of_length_eq_zero
  rw [levels_length]
  unfold pop? at h
  split at h
  next => cases h
  next hzero => omega

theorem pop?_eq_none_iff (s : IndentState) : s.pop? = none ↔ s.levels = [] := by
  refine ⟨levels_of_pop?_eq_none, ?_⟩
  intro hnil
  cases hpop : s.pop? with
  | none => rfl
  | some popped =>
      have hlevels := levels_of_pop? hpop
      rw [hnil] at hlevels
      simp at hlevels

/-- The levels that are closed are those at the end that are wider than the line. -/
theorem closeWider_spec
    (s : IndentState)
    (width : UInt32) :
    (s.closeWider width).1 = s.view.levels.length - (s.view.kept width).length ∧
      (s.closeWider width).2.view = s.view.withLevels (s.view.kept width) := by
  fun_induction closeWider s width with
  | case1 s h =>
      have hlevels := levels_of_pop?_eq_none h
      refine ⟨by simp [hlevels], ?_⟩
      exact StateView.ext (by simp [StateView.kept, hlevels]) rfl rfl rfl
  | case2 s top t h hwider closed ih =>
      obtain ⟨ihcount, ihview⟩ := ih
      have hlevels := levels_of_pop? h
      have hkept : s.view.kept width = t.view.kept width := by
        simp only [StateView.kept, view_levels, hlevels]
        exact List.rdropWhile_concat_pos _ _ _ (by simpa using hwider)
      have hle : (t.view.kept width).length ≤ t.levels.length :=
        (List.rdropWhile_prefix _ _).length_le
      refine ⟨?_, ?_⟩
      · rw [ihcount, hkept, view_levels, view_levels, hlevels, List.length_append,
          List.length_singleton]
        omega
      · rw [ihview, hkept, view_of_pop? h]
        rfl
  | case3 s top t h hnarrow =>
      have hkept : s.view.kept width = s.levels := by
        simp only [StateView.kept, view_levels, levels_of_pop? h]
        exact List.rdropWhile_concat_neg _ _ _ (by simpa using hnarrow)
      rw [hkept]
      exact ⟨(Nat.sub_self _).symm, rfl⟩

/-- The policy does to the view of a state what it does to the state. -/
theorem view_settle
    (s : IndentState)
    (width : UInt32) :
    s.view.settle width = ((s.settle width).1, (s.settle width).2.view) := by
  rw [StateView.settle, settle, view_atMisdentedWidth, view_currentWidth, view_lastWidth]
  by_cases hmisdent : s.atMisdentedWidth width = true
  · rw [if_pos hmisdent, if_pos hmisdent]
  rw [if_neg hmisdent, if_neg hmisdent]
  by_cases hwider : s.currentWidth < width
  · rw [if_pos hwider, if_pos hwider]
    rcases push_cases s width with ⟨hroom, t, hpush, ht⟩ | ⟨hfull, hpush⟩
    · rw [if_pos hroom, hpush, ht]
    · rw [if_neg hfull, hpush]
  rw [if_neg hwider, if_neg hwider]
  by_cases hnarrower : width < s.currentWidth
  · obtain ⟨hcount, hview⟩ := closeWider_spec s width
    rw [if_pos hnarrower, if_pos hnarrower]
    dsimp only
    rw [hcount, ← hview, view_currentWidth]
  rw [if_neg hnarrower, if_neg hnarrower]
  by_cases hfirst : s.lastWidth = unmeasured
  · rw [if_pos hfirst, if_pos hfirst]
  · rw [if_neg hfirst, if_neg hfirst]

/-- A line does to the view of a state what it does to the state. -/
theorem view_afterLine
    (s : IndentState)
    (measure : Option Layout.Measure) :
    s.view.afterLine measure = ((s.afterLine measure).1, (s.afterLine measure).2.view) := by
  cases measure with
  | none => rfl
  | some measure =>
      simp only [StateView.afterLine, StateView.afterContent, view_settle]
      rfl

/-- States of the same view give rise to the same tokens, and stay alike. -/
theorem afterLine_of_view_eq
    {s t : IndentState}
    (h : s.view = t.view)
    (measure : Option Layout.Measure) :
    (s.afterLine measure).1 = (t.afterLine measure).1 ∧
      (s.afterLine measure).2.view = (t.afterLine measure).2.view := by
  have hs := view_afterLine s measure
  have ht := view_afterLine t measure
  rw [h] at hs
  exact Prod.mk.inj (hs.symm.trans ht)

end IndentState
end Offside
