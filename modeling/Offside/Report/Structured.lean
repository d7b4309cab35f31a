import Offside.Layout.Basic
import Offside.Report.Json

/-!
# Traces as JSON

The report is an object with the events and the checkpoints of a trace, or, when
checkpoints are not shown, the array of its events alone.
-/

namespace Offside
namespace JsonReport

def ofEvent (e : Layout.Event) : Json :=
  .object
    [ ("line".toList, .number e.line),
      ("token".toList, .string e.token.name.toList) ]

/-- A checkpoint as a JSON value, its state as an array of bytes. -/
def ofCheckpoint (c : Layout.Checkpoint) : Json :=
  .object
    [ ("line".toList, .number c.line),
      ("offset".toList, .number c.offset),
      ("emitted".toList, .number c.emitted),
      ("state".toList, .array (c.state.map fun b => .number b.toNat)) ]

def ofEvents (events : List Layout.Event) : Json :=
  .array (events.map ofEvent)

def ofTrace (trace : Layout.Trace) : Json :=
  .object
    [ ("events".toList, ofEvents trace.events),
      ("checkpoints".toList, .array (trace.checkpoints.map ofCheckpoint)) ]

def render
    (trace : Layout.Trace)
    (showCheckpoints : Bool) :
    List Char :=
  (if showCheckpoints then ofTrace trace else ofEvents trace.events).render

end JsonReport
end Offside
