import Offside.Settings.KeyPath
import Offside.Settings.Value
import Offside.Text.Lowercase

/-!
# Setting a value at a path

A table that is set somewhere is merged, key by key, into the table that is
there; any other value takes the place of what was there.  Keys are lowercased
on the way.  What stands in the way of a path gives way to a table or an array.

This follows the documented behaviour of the package `config`, which the program
takes from outside.
-/

namespace Offside
namespace Settings
namespace Value

mutual

/-- What is under a key once a value was set there. -/
def settleOn
    (current : Option Value) :
    Value → Value
  | .table _ entries => addEntries (current.getD emptyTable) entries
  | .scalar origin content => .scalar origin content
  | .array origin items => .array origin items

/-- A value into which the entries of a table were merged. -/
def addEntries
    (target : Value) :
    List (String × Value) → Value
  | [] => target
  | (key, value) :: rest =>
      addEntries
        (target.alterKey (Lowercase.ofString key) fun current => settleOn current value)
        rest

end

/-- The position in an array of so many values that an index means.  What an index before the
start of the array means is not documented; it is taken for the start here, and no statement about
what settings come to rests on that choice. -/
def position
    (length : Nat)
    (i : Int) :
    Nat :=
  if 0 ≤ i then i.toNat else length - i.natAbs

/-- The values of an array; any other value has none. -/
def elements : Value → List Value
  | .array _ items => items
  | _ => []

/-- The file that an array came from. -/
def arrayOrigin : Value → Option String
  | .array origin _ => origin
  | _ => none

/-- Replaces what is at a place among some values, after they were filled up to that place. -/
def alterPlace
    (place : Nat)
    (f : Value → Value)
    (items : List Value) :
    List Value :=
  let padded := items ++ List.replicate (place + 1 - items.length) nil
  padded.set place (f (padded[place]?.getD nil))

/-- Replaces what is at a position of a value; a value that is not an array
gives way to an empty one first, and an array that is too short is filled up. -/
def alterIndex
    (i : Int)
    (f : Value → Value)
    (v : Value) :
    Value :=
  .array v.arrayOrigin (alterPlace (position v.elements.length i) f v.elements)

/-- A value in which another one was set at the end of some steps. -/
def setAt
    (value : Value) :
    List Segment → Option Value → Value
  | [], current => settleOn current value
  | .child name :: rest, current =>
      (current.getD nil).alterKey (Lowercase.ofString name) (setAt value rest)
  | [.index i], current => (current.getD nil).alterIndex i fun _ => value
  | .index i :: rest, current => (current.getD nil).alterIndex i fun v => setAt value rest (some v)

/-- The settings after a value was set at a path. -/
def set
    (root : Value)
    (path : KeyPath)
    (value : Value) :
    Value :=
  root.alterKey (Lowercase.ofString path.head) (setAt value path.steps)

end Value
end Settings
end Offside
