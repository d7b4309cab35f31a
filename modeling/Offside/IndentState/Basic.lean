import Offside.IndentState.Error

/-!
# The indentation state

Between two lines a layout scan remembers the widths of the blocks that are
open, outermost first, and three numbers about the lines before.  The widths
are held in a fixed row of slots together with the number of slots in use, so
a state has a bounded size and copies share nothing.

The view of a state is `levels`, the list of widths in use.  Each operation is
described by what it does to that list; equality and the printed form look at
the list and the three numbers alone.
-/

namespace Offside

/-- Most levels that can be open at once. -/
def maxDepth : Nat := 128

/-- The value of a number about an earlier line when there was no such line. -/
def unmeasured : Int32 := -1

/-- Open levels, and what the last lines looked like. -/
structure IndentState where
  /-- One slot a level, the outermost level first. -/
  slots : Vector UInt32 maxDepth
  depth : Nat
  depth_le : depth ≤ maxDepth
  lastWidth : Int32
  /-- Number of blank lines since the last line with content. -/
  blankRun : Int32
  /-- Column of the last word of the last line with content. -/
  lastColumn : Int32

namespace IndentState

/-- The state before the first line: no level is open and nothing was measured. -/
def initial : IndentState where
  slots := Vector.replicate maxDepth 0
  depth := 0
  depth_le := Nat.zero_le _
  lastWidth := unmeasured
  blankRun := 0
  lastColumn := unmeasured

instance : Inhabited IndentState := ⟨initial⟩

/-- The widths of the open levels, outermost first. -/
def levels (s : IndentState) : List UInt32 :=
  s.slots.toList.take s.depth

def isEmpty (s : IndentState) : Bool :=
  s.depth == 0

def isFull (s : IndentState) : Bool :=
  s.depth == maxDepth

/-- Whether the state cannot be told from the initial one. -/
def isInitial (s : IndentState) : Bool :=
  s.depth == 0
    && s.lastWidth == unmeasured
    && s.blankRun == 0
    && s.lastColumn == unmeasured

def top? (s : IndentState) : Option UInt32 :=
  if h : 0 < s.depth then
    have := s.depth_le
    some s.slots[s.depth - 1]
  else
    none

/-- The width that a line is compared with: that of the innermost level, or
zero when none is open. -/
def currentWidth (s : IndentState) : UInt32 :=
  s.top?.getD 0

/-- Opens a level inside the others. -/
def push
    (s : IndentState)
    (width : UInt32) :
    Except Error IndentState :=
  if h : s.depth < maxDepth then
    .ok { s with
      slots := s.slots.set s.depth width
      depth := s.depth + 1
      depth_le := h }
  else
    .error (.full width maxDepth)

/-- Closes the innermost level, and says how wide it was. -/
def pop? (s : IndentState) : Option (UInt32 × IndentState) :=
  if h : 0 < s.depth then
    have := s.depth_le
    some
      (s.slots[s.depth - 1],
        { s with
          slots := s.slots.set (s.depth - 1) 0
          depth := s.depth - 1
          depth_le := by omega })
  else
    none

/-- Clears the slots in use and forgets the three numbers. -/
def reset (s : IndentState) : IndentState where
  slots := Vector.ofFn fun i => if i.val < s.depth then 0 else s.slots[i]
  depth := 0
  depth_le := Nat.zero_le _
  lastWidth := unmeasured
  blankRun := 0
  lastColumn := unmeasured

/-- Two states are equal when they have the same levels and the same three
numbers; slots that are not in use do not count. -/
instance : BEq IndentState where
  beq s t :=
    s.levels == t.levels
      && s.lastWidth == t.lastWidth
      && s.blankRun == t.blankRun
      && s.lastColumn == t.lastColumn

/-- The state on one line, levels in brackets. -/
def describe (s : IndentState) : String :=
  "IndentationState \x7b levels: ["
    ++ ", ".intercalate (s.levels.map fun w => toString w)
    ++ "], last_indent_width: " ++ toString s.lastWidth
    ++ ", blank_run_length: " ++ toString s.blankRun
    ++ ", last_column: " ++ toString s.lastColumn
    ++ " \x7d"

theorem levels_length (s : IndentState) : s.levels.length = s.depth := by
  simp [levels, Nat.min_eq_left s.depth_le]

@[simp] theorem levels_initial : initial.levels = [] := rfl

@[simp] theorem isReset_initial : initial.isInitial = true := rfl

/-- The levels are what the slots in use hold. -/
theorem getElem?_levels
    (s : IndentState)
    {i : Nat}
    (hi : i < maxDepth)
    (hdepth : i < s.depth) :
    s.levels[i]? = some s.slots[i] := by
  rw [levels, List.getElem?_take, if_pos hdepth, Vector.getElem?_toList,
    Vector.getElem?_eq_getElem hi]

/-- The innermost level is the last of the list. -/
theorem top?_eq_getLast? (s : IndentState) : s.top? = s.levels.getLast? := by
  have hle := s.depth_le
  by_cases h : 0 < s.depth
  · have hlast : s.depth - 1 < s.depth := by omega
    have hslot : s.depth - 1 < maxDepth := by omega
    rw [top?, dif_pos h, List.getLast?_eq_getElem?, levels_length,
      getElem?_levels s hslot hlast]
  · have hzero : s.depth = 0 := by omega
    simp [top?, levels, hzero]

/-- The slots in use, the last of which was just written. -/
theorem take_succ_set
    (slots : Vector UInt32 maxDepth)
    (n : Nat)
    (width : UInt32)
    (h : n < maxDepth) :
    (slots.set n width).toList.take (n + 1) = slots.toList.take n ++ [width] := by
  have hlength : n < (slots.toList.set n width).length := by simp [h]
  rw [Vector.toList_set, List.take_succ_eq_append_getElem hlength,
    List.take_set_of_le (Nat.le_refl n), List.getElem_set_self hlength]

/-- Opening a level appends its width. -/
theorem levels_of_push
    {s t : IndentState}
    {width : UInt32}
    (h : s.push width = .ok t) :
    t.levels = s.levels ++ [width] := by
  unfold push at h
  split at h
  next hlt =>
    cases h
    exact take_succ_set s.slots s.depth width hlt
  next =>
    cases h

/-- Closing a level takes the last width off the list. -/
theorem levels_of_pop?
    {s t : IndentState}
    {width : UInt32}
    (h : s.pop? = some (width, t)) :
    s.levels = t.levels ++ [width] := by
  unfold pop? at h
  split at h
  next hpos =>
    have hle := s.depth_le
    have hslot : s.depth - 1 < s.slots.toList.length := by
      rw [Vector.length_toList]
      omega
    have hdepth : s.depth = s.depth - 1 + 1 := by omega
    cases h
    show s.slots.toList.take s.depth = (s.slots.set (s.depth - 1) 0).toList.take (s.depth - 1) ++ _
    rw [Vector.toList_set, List.take_set_of_le (Nat.le_refl _)]
    have htake := congrArg (fun n => s.slots.toList.take n) hdepth
    exact htake.trans (List.take_succ_eq_append_getElem hslot)
  next =>
    cases h

@[simp] theorem levels_reset (s : IndentState) : s.reset.levels = [] := rfl

end IndentState
end Offside
