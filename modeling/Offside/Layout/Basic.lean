import Offside.IndentState.Error

/-!
# What a layout scan is asked for and what it finds

A layout scan turns the indentation of each line into layout tokens, and
records after each line a checkpoint from which the scan can be taken up again.
Events and checkpoints together are the trace of the scan.
-/

namespace Offside
namespace Layout

/-- The choices open to the caller of a layout scan. -/
structure Options where
  /-- Columns from one tab stop to the next; zero is refused. -/
  tabWidth : UInt32 := 4
  /-- Whether a line that holds only a comment counts as blank. -/
  commentsAreBlank : Bool := true
  deriving DecidableEq, Repr

/-- What the indentation of a line says about blocks. -/
inductive Token where
  /-- A block opens. -/
  | indent
  /-- The innermost block closes. -/
  | dedent
  /-- The line goes on in the block that is open. -/
  | newline
  /-- The line is narrower than the blocks just closed and wider than the one still open. -/
  | misdent
  deriving DecidableEq, Repr

namespace Token

def all : List Token := [indent, dedent, newline, misdent]

def name : Token → String
  | indent => "indent"
  | dedent => "dedent"
  | newline => "newline"
  | misdent => "misdent"

def ofName? : String → Option Token
  | "indent" => some indent
  | "dedent" => some dedent
  | "newline" => some newline
  | "misdent" => some misdent
  | _ => none

@[simp] theorem ofName?_name (t : Token) : ofName? t.name = some t := by
  cases t <;> rfl

end Token

/-- A layout token and the line, counted from one, that gave rise to it. -/
structure Event where
  line : Nat
  token : Token
  deriving DecidableEq, Repr

/-- What is recorded after a line so that a scan can be taken up behind it. -/
structure Checkpoint where
  line : Nat
  /-- Byte position at which the next line starts. -/
  offset : Nat
  /-- Number of events before this point. -/
  emitted : Nat
  state : List UInt8
  deriving DecidableEq, Repr

/-- The events of a scan and its checkpoints, both in order. -/
structure Trace where
  events : List Event
  checkpoints : List Checkpoint
  deriving DecidableEq, Repr

namespace Trace

def empty : Trace := ⟨[], []⟩

def tokens (trace : Trace) : List Token :=
  trace.events.map Event.token

end Trace

inductive Error where
  | zeroTabWidth
  /-- The position of the checkpoint is not the start of a line in a source of
  so many bytes. -/
  | notLineStart (offset length : Nat)
  | badState (cause : IndentState.Error)
  deriving DecidableEq, Repr

def Error.message : Error → String
  | zeroTabWidth => "tab width must be greater than zero"
  | notLineStart offset length =>
      s!"checkpoint offset {offset} is not a line start in a {length}-byte source"
  | badState cause => "cannot restore checkpoint: " ++ cause.message

end Layout
end Offside
