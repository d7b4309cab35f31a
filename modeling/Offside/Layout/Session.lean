import Offside.Layout.Scan

/-!
# Sessions

A session holds a source, and the trace of it as far as it is known.  When the
source changes behind a checkpoint, the scan is taken up there, and what the
checkpoint stands behind is kept.  A step that fails leaves the held trace alone.
-/

namespace Offside
namespace Layout

/-- A source and what was found in it. -/
structure Session where
  source : List Char
  held : Trace

namespace Session

inductive Refusal where
  | noCheckpoint
  | layout (cause : Error)
  deriving DecidableEq, Repr

def initial : Session := ⟨[], Trace.empty⟩

def edit
    (session : Session)
    (source : List Char) :
    Session :=
  { session with source }

def scanAll
    (session : Session)
    (options : Options) :
    Session × Except Refusal Trace :=
  match traceOf session.source options with
  | .ok trace => ({ session with held := trace }, .ok trace)
  | .error cause => (session, .error (.layout cause))

/-- What is held once a scan was taken up at a held checkpoint: everything up
to the checkpoint, and then the new trace. -/
def splice
    (held : Trace)
    (index : Nat)
    (checkpoint : Checkpoint)
    (tail : Trace) :
    Trace where
  events := held.events.take checkpoint.emitted ++ tail.events
  checkpoints := held.checkpoints.take (index + 1) ++ tail.checkpoints

/-- Takes the scan up at a held checkpoint; the answer is the state there and
the trace of what follows. -/
def takeUp
    (session : Session)
    (options : Options)
    (index : Nat) :
    Session × Except Refusal (IndentState × Trace) :=
  match session.held.checkpoints[index]? with
  | none => (session, .error .noCheckpoint)
  | some checkpoint =>
      match Scan.ofCheckpoint session.source options checkpoint with
      | .error cause => (session, .error (.layout cause))
      | .ok scan =>
          ({ session with held := splice session.held index checkpoint scan.trace },
            .ok (scan.cursor.state, scan.trace))

def stateBytes?
    (session : Session)
    (index : Nat) :
    Option (List UInt8) :=
  session.held.checkpoints[index]?.map Checkpoint.state

end Session
end Layout
end Offside
