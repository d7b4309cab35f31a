import Offside.Settings.Merge
import Offside.Toml.Document

/-!
# Settings in documents

A document sets the values of its entries one after the other.  A key at its top
level is taken as a path where it is one, and literally otherwise.

This follows the documented behaviour of the package `config`, which the program
takes from outside.  The order is that of the text here, and that of a hash map,
which is not fixed, there.  Where no two keys lead to one place it makes no
difference (`filesLead_iff_of_apart`).
-/

namespace Offside
namespace Settings
namespace Value

mutual

/-- A part of a document as a value that comes from the given file. -/
def ofNode (origin : Option String) : Toml.Node → Value
  | .string s => .scalar origin (.string s)
  | .int i => .scalar origin (.int i)
  | .float x => .scalar origin (.float x)
  | .bool b => .scalar origin (.bool b)
  | .dateTime text => .scalar origin (.string text)
  | .array items => .array origin (ofNodes origin items)
  | .inline entries => .table origin (ofEntries origin entries)
  | .table _ entries => .table origin (ofEntries origin entries)
  | .tables items => .array origin (ofNodes origin items)

/-- Parts of a document in order as values. -/
def ofNodes (origin : Option String) : List Toml.Node → List Value
  | [] => []
  | node :: rest => ofNode origin node :: ofNodes origin rest

/-- The entries of a table in a document as entries of a value. -/
def ofEntries (origin : Option String) : List (String × Toml.Node) → List (String × Value)
  | [] => []
  | (key, node) :: rest => (key, ofNode origin node) :: ofEntries origin rest

end

/-- The path that a key at the top level of a document stands for. -/
def pathOfKey (key : String) : KeyPath :=
  (KeyPath.parse? key).getD (KeyPath.literal key)

/-- The settings after those of a document were set, in the order of the text. -/
def setDocument
    (root : Value)
    (origin : Option String)
    (entries : Toml.Entries) :
    Value :=
  entries.foldl (fun v entry => v.set (pathOfKey entry.1) (ofNode origin entry.2)) root

end Value
end Settings
end Offside
