import Offside.Layout.Basic
import Offside.Text.Hex

/-!
# Traces as text

One line for each event, with the number of its line and its token, and, when
checkpoints are shown, one line for each checkpoint.  A checkpoint stands behind
the events that were recorded before it.
-/

namespace Offside
namespace TextReport

inductive Entry where
  | event (e : Layout.Event)
  | checkpoint (c : Layout.Checkpoint)
  deriving DecidableEq, Repr

namespace Entry

/-- The characters of a line of the report, without its line break. -/
def body : Entry → List Char
  | event e => Nat.toDigits 10 e.line ++ '\t' :: e.token.name.toList
  | checkpoint c =>
      "checkpoint\tline=".toList ++ Nat.toDigits 10 c.line
        ++ "\toffset=".toList ++ Nat.toDigits 10 c.offset
        ++ "\tstate=".toList ++ Hex.ofBytes c.state

end Entry

/-- Events and checkpoints in the order in which they are printed, when so many
events were printed before. -/
def interleave
    (printed : Nat)
    (events : List Layout.Event) :
    List Layout.Checkpoint → List Entry
  | [] => events.map .event
  | c :: rest =>
      (events.take (c.emitted - printed)).map .event
        ++ .checkpoint c :: interleave c.emitted (events.drop (c.emitted - printed)) rest

def entries
    (trace : Layout.Trace)
    (showCheckpoints : Bool) :
    List Entry :=
  interleave 0 trace.events (if showCheckpoints then trace.checkpoints else [])

def render
    (trace : Layout.Trace)
    (showCheckpoints : Bool) :
    List Char :=
  (entries trace showCheckpoints).flatMap fun entry => entry.body ++ ['\n']

end TextReport
end Offside
