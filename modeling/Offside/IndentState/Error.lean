/-!
# What can go wrong with an indentation state

Two things can: a level is opened although the stack is full, or bytes are
offered that no state is written as.  Reading or closing a level of an empty
stack is not an error.
-/

namespace Offside
namespace IndentState

/-- Why a run of bytes is not the written form of a state. -/
inductive Defect where
  /-- The length is not a whole number of fields. -/
  | ragged
  /-- There are fewer than three fields. -/
  | tooShort
  /-- There are more levels than the stack can hold. -/
  | tooLong
  deriving DecidableEq, Repr

/-- A failed operation on an indentation state. -/
inductive Error where
  /-- A level of this width was opened on a stack that already held so many levels. -/
  | full (width : UInt32) (depth : Nat)
  /-- So many bytes were offered, and refused for this defect. -/
  | malformed (length : Nat) (defect : Defect)
  deriving DecidableEq, Repr

def Defect.message : Defect → String
  | ragged => "length is not a multiple of 4"
  | tooShort => "too short to hold the three scalar fields"
  | tooLong => "more levels than the stack capacity"

def Error.message : Error → String
  | full width depth =>
      s!"indentation stack is full ({depth} levels), cannot push width {width}"
  | malformed length defect =>
      "malformed scanner state (" ++ toString length ++ " bytes): " ++ defect.message

end IndentState
end Offside
