import Offside.IndentState.Codec
import Offside.Layout.Basic
import Offside.Layout.Columns

/-!
# The layout policy

What one line does to the indentation state, and which layout tokens it gives
rise to.

A blank line only counts as one more blank line.  A line with content is
compared with the innermost open level.  A wider line opens a level, or, when
the stack is full, goes on in the block that is open.  A narrower line closes
every level wider than itself, and is misdented when that leaves it between two
levels.  A line as wide as a misdented line before it goes on at that width.
-/

namespace Offside
namespace Layout

/-- What the policy is told about a line with content. -/
structure Measure where
  width : UInt32
  /-- Column at which its last content starts. -/
  column : UInt32
  deriving DecidableEq, Repr

end Layout

namespace IndentState

theorem depth_of_pop?
    {s t : IndentState}
    {width : UInt32}
    (h : s.pop? = some (width, t)) :
    t.depth + 1 = s.depth := by
  have hlevels := congrArg List.length (levels_of_pop? h)
  rw [List.length_append, levels_length, levels_length] at hlevels
  exact hlevels.symm

/-- Closes the levels that are wider than a line, and says how many they were. -/
def closeWider
    (s : IndentState)
    (width : UInt32) :
    Nat × IndentState :=
  match _h : s.pop? with
  | none => (0, s)
  | some (top, t) =>
      if width < top then
        let closed := closeWider t width
        (closed.1 + 1, closed.2)
      else
        (0, s)
termination_by s.depth
decreasing_by
  have := depth_of_pop? _h
  omega

/-- Whether a line stands at the width of a misdented line before it, which is
wider than every open level and is not one of them. -/
def atMisdentedWidth
    (s : IndentState)
    (width : UInt32) :
    Bool :=
  decide (Layout.Columns.remembered s.currentWidth < s.lastWidth)
    && s.lastWidth == Layout.Columns.remembered width

/-- The tokens of a line with content of a given width, and the levels that
are open after it. -/
def settle
    (s : IndentState)
    (width : UInt32) :
    List Layout.Token × IndentState :=
  if s.atMisdentedWidth width then
    ([.newline], s)
  else if s.currentWidth < width then
    match s.push width with
    | .ok t => ([.indent], t)
    | .error _ => ([.newline], s)
  else if width < s.currentWidth then
    let closed := s.closeWider width
    let landing := if closed.2.currentWidth = width then Layout.Token.newline else .misdent
    (List.replicate closed.1 .dedent ++ [landing], closed.2)
  else if s.lastWidth = unmeasured then
    ([], s)
  else
    ([.newline], s)

/-- The tokens of a line with content, and the state after it. -/
def afterContent
    (s : IndentState)
    (width column : UInt32) :
    List Layout.Token × IndentState :=
  let settled := s.settle width
  (settled.1,
    { settled.2 with
      lastWidth := Layout.Columns.remembered width
      blankRun := 0
      lastColumn := Layout.Columns.remembered column })

def afterBlank (s : IndentState) : IndentState :=
  { s with blankRun := Layout.Columns.increment s.blankRun }

/-- The tokens of a line, and the state after it; a line without a measure is
blank. -/
def afterLine (s : IndentState) : Option Layout.Measure → List Layout.Token × IndentState
  | some measure => s.afterContent measure.width measure.column
  | none => ([], s.afterBlank)

end IndentState
end Offside
