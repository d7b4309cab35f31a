import Offside.Report.Format

/-!
# Arguments of the command

The command takes the path of a source, options with a value and switches, in
any order.  An option is given by its long name or its letter, and its value
follows it, behind an equals sign or as the next argument; behind a letter the
equals sign may be left out.  Letters may be joined into one argument.  After a
double hyphen every argument is a path.

A value is checked when the argument after it has been recognised, so that of
two mistakes, or of a mistake and a request for the version, the first one in the
order of the arguments counts.

How arguments are taken apart is the documented behaviour of the package `clap`,
which the program takes from outside; which options there are is its own.
-/

namespace Offside
namespace Command

/-- What the command was asked to do. -/
structure Arguments where
  path : String
  config : Option String
  format : Option OutputFormat
  tabWidth : Option UInt32
  noCheckpoints : Bool
  quiet : Bool
  verbosity : Nat
  deriving DecidableEq, Repr

inductive Stop where
  | usage
  | version
  | help
  deriving DecidableEq, Repr

/-- What a value can be given for. -/
inductive Slot where
  | path
  | config
  | format
  | tabWidth
  deriving DecidableEq, Repr

/-- What is turned on without a value. -/
inductive Switch where
  | noCheckpoints
  | verbose
  | quiet
  | version
  | help
  deriving DecidableEq, Repr

/-- An option takes a value, a switch does not. -/
inductive OptionKind where
  | slot (s : Slot)
  | switch (s : Switch)
  deriving DecidableEq, Repr

def longOption? : String → Option OptionKind
  | "config" => some (.slot .config)
  | "format" => some (.slot .format)
  | "tab-width" => some (.slot .tabWidth)
  | "no-checkpoints" => some (.switch .noCheckpoints)
  | "verbose" => some (.switch .verbose)
  | "quiet" => some (.switch .quiet)
  | "version" => some (.switch .version)
  | "help" => some (.switch .help)
  | _ => none

def letterOption? : Char → Option OptionKind
  | 'c' => some (.slot .config)
  | 'f' => some (.slot .format)
  | 'v' => some (.switch .verbose)
  | 'q' => some (.switch .quiet)
  | 'V' => some (.switch .version)
  | 'h' => some (.switch .help)
  | _ => none

/-- The distance of tab stops that a text spells: a decimal number with an
optional sign, at least one and small enough for a word. -/
def tabWidth? (cs : List Char) : Option UInt32 :=
  let digits :=
    match cs with
    | '+' :: rest => rest
    | rest => rest
  if digits.isEmpty || !digits.all Char.isDigit then
    none
  else
    let n := Nat.ofDigitChars 10 digits 0
    if 1 ≤ n ∧ n < UInt32.size then some (UInt32.ofNat n) else none

structure Draft where
  path : Option String := none
  config : Option String := none
  format : Option OutputFormat := none
  tabWidth : Option UInt32 := none
  noCheckpoints : Bool := false
  quiet : Bool := false
  verbosity : Nat := 0

inductive Pending where
  | nothing
  | missing (slot : Slot)
  | value (slot : Slot) (text : String)

namespace Draft

/-- Checks a value and keeps it, unless there is one for the same purpose. -/
def assign
    (d : Draft)
    (slot : Slot)
    (text : String) :
    Except Stop Draft :=
  match slot with
  | .path =>
      if d.path.isSome || text.isEmpty then .error .usage else .ok { d with path := some text }
  | .config =>
      if d.config.isSome || text.isEmpty then .error .usage else .ok { d with config := some text }
  | .format =>
      match d.format, OutputFormat.ofName? text with
      | none, some format => .ok { d with format := some format }
      | _, _ => .error .usage
  | .tabWidth =>
      match d.tabWidth, tabWidth? text.toList with
      | none, some width => .ok { d with tabWidth := some width }
      | _, _ => .error .usage

/-- Checks the value that waits. -/
def settle
    (d : Draft) :
    Pending → Except Stop Draft
  | .nothing => .ok d
  | .missing _ => .error .usage
  | .value slot text => d.assign slot text

/-- Turns a switch on; only log output may be asked for more than once. -/
def turnOn
    (d : Draft) :
    Switch → Except Stop Draft
  | .noCheckpoints =>
      if d.noCheckpoints then .error .usage else .ok { d with noCheckpoints := true }
  | .verbose => .ok { d with verbosity := d.verbosity + 1 }
  | .quiet => if d.quiet then .error .usage else .ok { d with quiet := true }
  | .version => .error .version
  | .help => .error .help

/-- Reads an option with a long name, and the value behind an equals sign. -/
def readLong
    (d : Draft)
    (pending : Pending)
    (name : String)
    (attached : Option String) :
    Except Stop (Draft × Pending) :=
  match longOption? name, attached with
  | some (.slot slot), some text => do
      let d ← d.settle pending
      let d ← d.assign slot text
      pure (d, .nothing)
  | some (.slot slot), none => do
      let d ← d.settle pending
      pure (d, .missing slot)
  | some (.switch switch), none => do
      let d ← d.settle pending
      let d ← d.turnOn switch
      pure (d, .nothing)
  | _, _ => .error .usage

/-- Reads joined letters; what follows the letter of an option is its value. -/
def readLetters
    (d : Draft)
    (pending : Pending) :
    List Char → Except Stop (Draft × Pending)
  | [] => .ok (d, pending)
  | c :: rest =>
      match letterOption? c with
      | some (.switch switch) => do
          let d ← d.settle pending
          let d ← d.turnOn switch
          readLetters d .nothing rest
      | some (.slot slot) => do
          let d ← d.settle pending
          match rest with
          | [] => pure (d, .missing slot)
          | '=' :: text => do
              let d ← d.assign slot (String.ofList text)
              pure (d, .nothing)
          | text => do
              let d ← d.assign slot (String.ofList text)
              pure (d, .nothing)
      | none => .error .usage

/-- Reads an argument that is not an option. -/
def readPath
    (d : Draft)
    (pending : Pending)
    (text : String) :
    Except Stop (Draft × Pending) := do
  let d ← d.settle pending
  if d.path.isSome then .error .usage else pure (d, .value .path text)

/-- Reads an argument that stands before any double hyphen. -/
def readArgument
    (d : Draft)
    (pending : Pending)
    (text : String) :
    Except Stop (Draft × Pending) :=
  match text.toList with
  | '-' :: '-' :: body =>
      let name := String.ofList (body.takeWhile (· != '='))
      match body.dropWhile (· != '=') with
      | '=' :: attached => d.readLong pending name (some (String.ofList attached))
      | _ => d.readLong pending name none
  | '-' :: c :: rest => d.readLetters pending (c :: rest)
  | _ =>
      match pending with
      | .missing slot => .ok (d, .value slot text)
      | _ => d.readPath pending text

/-- Reads all arguments, of which those behind a double hyphen are paths. -/
def readAll
    (onlyPaths : Bool)
    (d : Draft)
    (pending : Pending) :
    List String → Except Stop Draft
  | [] => d.settle pending
  | text :: rest =>
      if onlyPaths then do
        let (d, pending) ← d.readPath pending text
        readAll true d pending rest
      else if text = "--" then
        readAll true d pending rest
      else do
        let (d, pending) ← d.readArgument pending text
        readAll false d pending rest

/-- The arguments, once they are all read: there is a source, and more log
output is not asked for together with less. -/
def finish (d : Draft) : Except Stop Arguments :=
  match d.path with
  | none => .error .usage
  | some path =>
      if d.quiet && decide (0 < d.verbosity) then
        .error .usage
      else
        .ok
          { path
            config := d.config
            format := d.format
            tabWidth := d.tabWidth
            noCheckpoints := d.noCheckpoints
            quiet := d.quiet
            verbosity := d.verbosity }

end Draft

namespace Arguments

/-- What the command is asked to do by its arguments. -/
def parse (texts : List String) : Except Stop Arguments := do
  let d ← Draft.readAll false {} .nothing texts
  d.finish

end Arguments
end Command
end Offside
