import Offside.Files
import Offside.Settings.Decode
import Offside.Settings.Document

/-!
# Layers of settings

Settings are put together from layers: the defaults, then files in their order,
and then the overrides, wherever they stood among the files.  Of two overrides
of one key the later one counts.  A key that is not a path is refused before any
file is read.

This follows the documented behaviour of the package `config`, which the program
takes from outside.  The overrides are set in the order in which they were asked
for here, and in that of a hash map, which is not fixed, there.  What the settings
come to in any order of the keys, of the overrides and of the conversions is said
by `Loads`, and `ofLayers` is one of these outcomes (`loads_ofLayers`).
-/

namespace Offside
namespace Settings

/-- Something that settings are put together from. -/
inductive Layer where
  | file (name : String)
  | override (key : String) (value : Value)

/-- The files and the overrides that were asked for so far. -/
structure Plan where
  files : List String
  overrides : List (KeyPath × Value)

/-- What the settings are before any layer. -/
def defaults : Value :=
  .table none
    [ ("inspect",
        .table none
          [ ("format", .scalar none (.string "text")),
            ("show_checkpoints", .scalar none (.bool true)) ]),
      ("layout",
        .table none
          [ ("comments_are_blank", .scalar none (.bool true)),
            ("tab_width", .scalar none (.int 4)) ]) ]

namespace Plan

def initial : Plan := ⟨[], []⟩

def addFile
    (plan : Plan)
    (name : String) :
    Plan :=
  { plan with files := plan.files ++ [name] }

/-- Adds an override, in place of an earlier one of the same key. -/
def addOverride
    (plan : Plan)
    (key : String)
    (value : Value) :
    Except Error Plan :=
  match KeyPath.parse? key with
  | none => .error .malformedKey
  | some path =>
      .ok { plan with
        overrides := (plan.overrides.filter fun o => o.1 != path) ++ [(path, value)] }

def addLayer
    (plan : Plan) :
    Layer → Except Error Plan
  | .file name => .ok (plan.addFile name)
  | .override key value => plan.addOverride key value

/-- The files and overrides of some layers. -/
def ofLayers (layers : List Layer) : Except Error Plan :=
  layers.foldlM addLayer initial

end Plan

/-- The parts of a path that lead somewhere. -/
def properParts (name : String) : List String :=
  (pathParts name).filter fun part => part != "" && part != "."

/-- The name with which messages speak of a file. -/
def shownName (name : String) : String :=
  "/".intercalate (properParts name)

/-- The name that is tried when there is no file with the name itself. -/
def extendedName? (name : String) : Option String :=
  match (properParts name).getLast? with
  | none => none
  | some last =>
      if last = ".." then
        none
      else
        let start := if name.toList.head? = some '/' then "/" else ""
        some (start ++ shownName name ++ ".toml")

/-- The name under which a file is found, if it is. -/
def findFile
    (view : FileView)
    (name : String) :
    Except Error String :=
  if (view name).isFile then
    .ok name
  else
    match extendedName? name with
    | some extended => if (view extended).isFile then .ok extended else .error (.fileNotFound name)
    | none => .error (.fileNotFound name)

/-- The settings after those of a file were set. -/
def setFile
    (view : FileView)
    (root : Value)
    (name : String) :
    Except Error Value := do
  let found ← findFile view name
  match (view found).readText with
  | .error _ => .error .fileNotText
  | .ok text =>
      match Toml.parse? text with
      | none => .error .malformedFile
      | some (.dateTime date) => .error (.dateFile date (shownName found))
      | some (.entries entries) => .ok (root.setDocument (some (shownName found)) entries)

namespace Plan

/-- The values of all layers put together, with the keys of a file in the order of its text and
the overrides in the order in which they were asked for. -/
def values
    (plan : Plan)
    (view : FileView) :
    Except Error Value := do
  let root ← plan.files.foldlM (setFile view) defaults
  pure (plan.overrides.foldl (fun v o => v.set o.1 o.2) root)

/-- The settings that all layers give together. -/
def settings
    (plan : Plan)
    (view : FileView) :
    Except Error Settings := do
  decode (← plan.values view)

end Plan

def ofLayers
    (view : FileView)
    (layers : List Layer) :
    Except Error Settings := do
  let plan ← Plan.ofLayers layers
  plan.settings view

end Settings
end Offside
