import Offside.Command.Arguments
import Offside.Layout.Scan
import Offside.Settings.Layers

/-!
# Running the command

The settings are put together from the defaults, the file with settings and the
options.  Then the source is read and scanned, and the scan is reported.  The
first of these steps that fails is what the command complains about.
-/

namespace Offside
namespace Command

inductive Failure where
  | settings (cause : Settings.Error)
  | source (path : String) (cause : ReadError)
  | layout (cause : Layout.Error)

namespace Failure

def message : Failure → String
  | settings cause => "Invalid configuration: " ++ cause.message
  | source path cause => "Failed to read " ++ path ++ ": " ++ cause.message
  | layout cause => "Layout scan failed: " ++ cause.message

end Failure

/-- The layers of settings that the arguments ask for, behind the defaults. -/
def layers (args : Arguments) : List Settings.Layer :=
  (args.config.map fun name => Settings.Layer.file name).toList
    ++ (args.format.map fun format =>
        Settings.Layer.override "inspect.format" (.scalar none (.string format.name))).toList
    ++ (args.tabWidth.map fun width =>
        Settings.Layer.override "layout.tab_width"
          (.scalar none (.int (Int64.ofNat width.toNat)))).toList

def settingsFor
    (view : FileView)
    (args : Arguments) :
    Except Settings.Error Settings :=
  Settings.ofLayers view (layers args)

/-- Puts failures of one step in terms of the whole run. -/
def orFail
    {ε α : Type}
    (f : ε → Failure) :
    Except ε α → Except Failure α
  | .ok a => .ok a
  | .error e => .error (f e)

/-- The report that a run prints. -/
def run
    (view : FileView)
    (args : Arguments) :
    Except Failure String := do
  let settings ← orFail .settings (settingsFor view args)
  let source ← orFail (.source args.path) (view args.path).readText
  let trace ← orFail .layout (Layout.traceOf source.toList settings.layout)
  pure (renderTrace trace settings.format (settings.showCheckpoints && !args.noCheckpoints))

/-- How a run of the program ends. -/
inductive Outcome where
  | printed (text : String)
  | failed (complaint : String)
  | misused
  deriving DecidableEq, Repr

namespace Outcome

/-- What the program prints. -/
def output : Outcome → String
  | printed text => text
  | failed _ => ""
  | misused => ""

/-- What the program complains about, apart from its output. -/
def complaint : Outcome → String
  | printed _ => ""
  | failed complaint => complaint
  | misused => "error: the arguments are not well formed; try --help"

def exitCode : Outcome → UInt32
  | printed _ => 0
  | failed _ => 1
  | misused => 2

end Outcome

/-- The name of the program and its version. -/
def versionLine : String := "scindent 0.1.0\n"

def helpText : String :=
  "Usage: scindent [OPTIONS] <path>\n\n"
    ++ "Options:\n"
    ++ "  -c, --config <config>        Configuration file layered over the built-in defaults\n"
    ++ "  -f, --format <format>        Output format, text or json\n"
    ++ "      --tab-width <tab-width>  Columns between tab stops\n"
    ++ "      --no-checkpoints         Only print layout tokens\n"
    ++ "  -v, --verbose...             More log output\n"
    ++ "  -q, --quiet                  Only log errors\n"
    ++ "  -h, --help                   Print help\n"
    ++ "  -V, --version                Print version\n"

def respond
    (view : FileView)
    (texts : List String) :
    Outcome :=
  match Arguments.parse texts with
  | .error .usage => .misused
  | .error .version => .printed versionLine
  | .error .help => .printed helpText
  | .ok args =>
      match run view args with
      | .ok text => .printed text
      | .error failure => .failed ("Error: " ++ failure.message)

/-- The paths that a run may look at. -/
def pathsOf (texts : List String) : List String :=
  match Arguments.parse texts with
  | .error _ => []
  | .ok args =>
      args.path
        :: (match args.config with
          | none => []
          | some name => name :: (Settings.extendedName? name).toList)

end Command
end Offside
