/-!
# Values of settings

Settings are read from files and from overrides as values: scalars, arrays and
tables.  Each value remembers the file that it came from, so that a complaint
about it can name the file.  The kinds of values are the documented ones of the
package `config`, which the program takes from outside.

The entries of a table are kept in the order of their keys.  `find?` and
`alter` both stop at the first greater key, and so updates under two different
keys commute (`alter_comm`).
-/

namespace Offside
namespace Settings

/-- A value that has no parts. -/
inductive Scalar where
  | nil
  | bool (b : Bool)
  | int (i : Int64)
  | unsigned (u : UInt64)
  /-- A number with 128 bits; only an override can have one. -/
  | wideInt (i : BitVec 128)
  | wideUnsigned (u : BitVec 128)
  | float (x : Float)
  | string (s : String)

/-- A value with the file that it came from, if it came from one. -/
inductive Value where
  | scalar (origin : Option String) (content : Scalar)
  | array (origin : Option String) (items : List Value)
  | table (origin : Option String) (entries : List (String × Value))

abbrev Entries : Type := List (String × Value)

namespace Entries

def find?
    (key : String) :
    Entries → Option Value
  | [] => none
  | (k, v) :: rest =>
      if key < k then none
      else if key = k then some v
      else find? key rest

/-- Replaces what is under a key, which may be nothing. -/
def alter
    (key : String)
    (f : Option Value → Value) :
    Entries → Entries
  | [] => [(key, f none)]
  | (k, v) :: rest =>
      if key < k then (key, f none) :: (k, v) :: rest
      else if key = k then (k, f (some v)) :: rest
      else (k, v) :: alter key f rest

/-- What was put under a key is found there. -/
theorem find?_alter_self
    (key : String)
    (f : Option Value → Value)
    (entries : Entries) :
    find? key (alter key f entries) = some (f (find? key entries)) := by
  induction entries with
  | nil => simp [alter, find?]
  | cons entry rest ih =>
      obtain ⟨k, v⟩ := entry
      unfold alter
      split
      next h => simp [find?, h]
      next h =>
        split
        next heq => simp [find?, heq]
        next hne => simp [find?, h, hne, ih]

/-- Nothing changes under the other keys. -/
theorem find?_alter_of_ne
    {key other : String}
    (hne : other ≠ key)
    (f : Option Value → Value)
    (entries : Entries) :
    find? other (alter key f entries) = find? other entries := by
  induction entries with
  | nil => simp [alter, find?, hne]
  | cons entry rest ih =>
      obtain ⟨k, v⟩ := entry
      unfold alter
      split
      next h =>
        by_cases hlt : other < key
        · have : other < k := String.lt_trans hlt h
          simp [find?, hlt, this]
        · simp [find?, hlt, hne]
      next h =>
        split
        next heq =>
          subst heq
          simp [find?, hne]
        next hk =>
          by_cases hlt : other < k
          · simp [find?, hlt]
          · simp [find?, hlt, ih]

/-- Updates under two different keys commute. -/
theorem alter_comm
    {key other : String}
    (hne : key ≠ other)
    (f g : Option Value → Value)
    (entries : Entries) :
    alter key f (alter other g entries) = alter other g (alter key f entries) := by
  induction entries with
  | nil =>
      rcases String.le_total key other with h | h
      · have hlt : key < other := by grind
        have hgt : ¬ other < key := by grind
        simp [alter, hlt, hgt, hne.symm]
      · have hlt : other < key := by grind
        have hgt : ¬ key < other := by grind
        simp [alter, hlt, hgt, hne]
  | cons entry rest ih =>
      obtain ⟨k, v⟩ := entry
      grind [alter]

end Entries

namespace Value

def nil : Value := .scalar none .nil

def emptyTable : Value := .table none []

/-- Replaces what is under a key of a value; a value that is not a table gives
way to an empty one first. -/
def alterKey
    (key : String)
    (f : Option Value → Value) :
    Value → Value
  | .table origin entries => .table origin (Entries.alter key f entries)
  | _ => .table none (Entries.alter key f [])

def find?
    (key : String) :
    Value → Option Value
  | .table _ entries => Entries.find? key entries
  | _ => none

end Value
end Settings
end Offside
