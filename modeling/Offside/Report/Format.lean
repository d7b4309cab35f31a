import Offside.Report.Structured
import Offside.Report.Text

/-!
# Report formats

A trace is reported as text or as JSON, with or without its checkpoints.
-/

namespace Offside

inductive OutputFormat where
  | text
  | json
  deriving DecidableEq, Repr

namespace OutputFormat

def name : OutputFormat → String
  | text => "text"
  | json => "json"

def ofName? : String → Option OutputFormat
  | "text" => some text
  | "json" => some json
  | _ => none

@[simp] theorem ofName?_name (f : OutputFormat) : ofName? f.name = some f := by
  cases f <;> rfl

end OutputFormat

def renderTrace
    (trace : Layout.Trace)
    (format : OutputFormat)
    (showCheckpoints : Bool) :
    String :=
  String.ofList <|
    match format with
    | .text => TextReport.render trace showCheckpoints
    | .json => JsonReport.render trace showCheckpoints

end Offside
