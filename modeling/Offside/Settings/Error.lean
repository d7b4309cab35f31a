import Offside.Number.Shortest
import Offside.Settings.Value
import Offside.Text.Quoted

/-!
# What can be wrong with settings

Files may be missing or unreadable, keys may not be paths, and values may not be
of the kind that a setting needs.  The complaints are worded as those of the
package `config`, which the program takes from outside.
-/

namespace Offside
namespace Settings

/-- What was found where a setting needs something else. -/
inductive Found where
  | int (i : Int64)
  | unsigned (u : UInt64)
  | wideInt (i : BitVec 128)
  | wideUnsigned (u : BitVec 128)
  | string (s : String)
  | nil
  | array
  | table
  deriving DecidableEq

inductive Expected where
  | integer
  | notNegative
  | word
  | boolean
  deriving DecidableEq, Repr

inductive Group where
  | layout
  | inspect
  deriving DecidableEq, Repr

inductive Error where
  | wrongType (found : Found) (expected : Expected) (key : String) (origin : Option String)
  | missingField (name : String)
  | tooFewValues (count : Nat) (group : Group)
  | notGroup (found : Scalar) (group : Group)
  | unknownFormat (name : String)
  | notFormat
  | fileNotFound (name : String)
  | fileNotText
  | malformedFile
  | dateFile (text : String) (origin : String)
  | malformedKey

namespace Found

def describe : Found → String
  | int i => "64-bit integer `" ++ toString i.toInt ++ "`"
  | unsigned u => "64-bit unsigned integer `" ++ toString u.toNat ++ "`"
  | wideInt i => "128-bit integer `" ++ toString i.toInt ++ "`"
  | wideUnsigned u => "128-bit unsigned integer `" ++ toString u.toNat ++ "`"
  | string s => "string " ++ Quoted.ofString s
  | nil => "unit value"
  | array => "sequence"
  | table => "map"

end Found

namespace Expected

def describe : Expected → String
  | integer => "an integer"
  | notNegative => "an unsigned 64 bit or less integer"
  | word => "an unsigned 32 bit integer"
  | boolean => "a boolean"

end Expected

namespace Group

def key : Group → String
  | layout => "layout"
  | inspect => "inspect"

/-- The name of a group in complaints. -/
def describe : Group → String
  | layout => "struct LayoutConfig"
  | inspect => "struct InspectConfig"

/-- The keys of the settings of a group, in order. -/
def fields : Group → String × String
  | layout => ("tab_width", "comments_are_blank")
  | inspect => ("format", "show_checkpoints")

end Group

namespace Scalar

/-- A scalar where a group was needed, in words. -/
def describe : Scalar → String
  | nil => "unit value"
  | bool b => "boolean `" ++ toString b ++ "`"
  | int i => "integer `" ++ toString i.toInt ++ "`"
  | unsigned u => "integer `" ++ toString u.toNat ++ "`"
  | wideInt i => "integer `" ++ toString i.toInt ++ "` as i128"
  | wideUnsigned u => "integer `" ++ toString u.toNat ++ "` as u128"
  | float x => "floating point `" ++ Shortest.ofFloat x ++ "`"
  | string s => "string " ++ Quoted.ofString s

end Scalar

namespace Error

def message : Error → String
  | wrongType found expected key origin =>
      "invalid type: " ++ found.describe ++ ", expected " ++ expected.describe
        ++ " for key `" ++ key ++ "`"
        ++ match origin with
          | some file => " in " ++ file
          | none => ""
  | missingField name => "missing field `" ++ name ++ "`"
  | tooFewValues count group =>
      "invalid length " ++ toString count ++ ", expected " ++ group.describe ++ " with 2 elements"
  | notGroup found group => "invalid type: " ++ found.describe ++ ", expected " ++ group.describe
  | unknownFormat name => "enum OutputFormat does not have variant constructor " ++ name
  | notFormat =>
      "value of enum OutputFormat should be represented by either string or table with exactly one key"
  | fileNotFound name => "configuration file \x22" ++ name ++ "\x22 not found"
  | fileNotText => "stream did not contain valid UTF-8"
  | malformedFile => "TOML parse error"
  | dateFile text origin =>
      "invalid type: string " ++ Quoted.ofString text ++ ", expected a map in " ++ origin
        ++ " in " ++ origin
  | malformedKey => "path parse error"

end Error
end Settings
end Offside
