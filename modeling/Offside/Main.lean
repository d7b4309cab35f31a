import Offside.Command.Run

/-!
# The program

Looks at the files that a run needs, runs the command on what it saw, prints the
answer and sets the exit code.
-/

namespace Offside

/-- Whether the system means by a number that a part of a path is a file; some
of its layers report the number with a minus sign. -/
def meansThroughFile (code : UInt32) : Bool :=
  code == 20 || code == 0 - 20

/-- What a path of the file system leads to. -/
def lookAt (path : String) : IO PathTarget := do
  try
    let content ← IO.FS.readBinFile path
    pure (.file content)
  catch e =>
    match e with
    | .inappropriateType _ code _ => pure (if meansThroughFile code then .throughFile else .directory)
    | _ => pure .missing

/-- A view of the file system at some paths. -/
def viewOf (seen : List (String × PathTarget)) : FileView := fun path =>
  ((seen.find? fun entry => entry.1 == path).map Prod.snd).getD .missing

end Offside

def main (args : List String) : IO UInt32 := do
  let seen ← (Offside.Command.pathsOf args).mapM fun path => do
    pure (path, ← Offside.lookAt path)
  let outcome := Offside.Command.respond (Offside.viewOf seen) args
  IO.print outcome.output
  unless outcome.complaint.isEmpty do
    IO.eprintln outcome.complaint
  pure outcome.exitCode
