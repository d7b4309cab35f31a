import Offside.Layout.Basic
import Offside.Report.Format
import Offside.Settings.Error
import Offside.Text.Lowercase

/-!
# Settings from values

The values of the four settings are converted to what the scan and the report
need.  A group of settings is a table, in which only the keys of its settings
count, or an array with one value for each setting in order.

Which values convert, and to what, follows the documented behaviour of the package
`config`, which the program takes from outside.  The package goes through a table
in the order of a hash map, which is not fixed.  So the order of the conversions is
a parameter (`Order`); it only decides which one of several complaints is made.
-/

namespace Offside

/-- What a scan and its report go by. -/
structure Settings where
  layout : Layout.Options
  format : OutputFormat
  showCheckpoints : Bool
  deriving DecidableEq, Repr

namespace Settings

/-- A 64-bit number from its digits, which may have a plus sign before them. -/
def decimal? (s : String) : Option UInt64 :=
  let digits :=
    match s.toList with
    | '+' :: rest => rest
    | cs => cs
  if digits.isEmpty || !digits.all Char.isDigit then
    none
  else
    let n := Nat.ofDigitChars 10 digits 0
    if n < UInt64.size then some (UInt64.ofNat n) else none

/-- A number from the words for truth values, or from its digits. -/
def numberOfText? (s : String) : Option UInt64 :=
  let lower := Lowercase.ofString s
  if lower = "true" ∨ lower = "on" ∨ lower = "yes" then some 1
  else if lower = "false" ∨ lower = "off" ∨ lower = "no" then some 0
  else decimal? s

/-- A truth value from the words and digits for it, all lowercase. -/
def boolOfText? (lower : String) : Option Bool :=
  if lower = "1" ∨ lower = "true" ∨ lower = "on" ∨ lower = "yes" then some true
  else if lower = "0" ∨ lower = "false" ∨ lower = "off" ∨ lower = "no" then some false
  else none

/-- A value as a number that is not negative; a fraction is rounded to the
nearest number, a half away from zero. -/
def decodeUnsigned
    (key : String) :
    Value → Except Error UInt64
  | .scalar _ (.unsigned u) => .ok u
  | .scalar origin (.int i) =>
      if 0 ≤ i then .ok i.toUInt64 else .error (.wrongType (.int i) .notNegative key origin)
  | .scalar origin (.wideInt i) =>
      if 0 ≤ i.toInt ∧ i.toInt.toNat < UInt64.size then .ok (UInt64.ofNat i.toInt.toNat)
      else .error (.wrongType (.wideInt i) .notNegative key origin)
  | .scalar origin (.wideUnsigned u) =>
      if u.toNat < UInt64.size then .ok (UInt64.ofNat u.toNat)
      else .error (.wrongType (.wideUnsigned u) .notNegative key origin)
  | .scalar _ (.bool b) => .ok (if b then 1 else 0)
  | .scalar _ (.float x) => .ok x.round.toUInt64
  | .scalar origin (.string s) =>
      match numberOfText? s with
      | some u => .ok u
      | none => .error (.wrongType (.string s) .integer key origin)
  | .scalar origin .nil => .error (.wrongType .nil .integer key origin)
  | .array origin _ => .error (.wrongType .array .integer key origin)
  | .table origin _ => .error (.wrongType .table .integer key origin)

/-- A value as a 32-bit word. -/
def decodeWord
    (key : String)
    (v : Value) :
    Except Error UInt32 :=
  match decodeUnsigned key v with
  | .error e => .error e
  | .ok u =>
      if u.toNat < UInt32.size then .ok u.toUInt32
      else .error (.wrongType (.unsigned u) .word key none)

/-- A value as a truth value. -/
def decodeBool
    (key : String) :
    Value → Except Error Bool
  | .scalar _ (.bool b) => .ok b
  | .scalar _ (.int i) => .ok (i != 0)
  | .scalar _ (.unsigned u) => .ok (u != 0)
  | .scalar _ (.wideInt i) => .ok (i != 0)
  | .scalar _ (.wideUnsigned u) => .ok (u != 0)
  | .scalar _ (.float x) => .ok (x != 0.0)
  | .scalar origin (.string s) =>
      match boolOfText? (Lowercase.ofString s) with
      | some b => .ok b
      | none => .error (.wrongType (.string (Lowercase.ofString s)) .boolean key origin)
  | .scalar origin .nil => .error (.wrongType .nil .boolean key origin)
  | .array origin _ => .error (.wrongType .array .boolean key origin)
  | .table origin _ => .error (.wrongType .table .boolean key origin)

/-- An output format from its name in letters of any case. -/
def formatOfText (name : String) : Except Error OutputFormat :=
  match OutputFormat.ofName? (Lowercase.ofString name) with
  | some format => .ok format
  | none => .error (.unknownFormat name)

/-- A value as an output format; a table stands for its only key. -/
def decodeFormat : Value → Except Error OutputFormat
  | .scalar _ (.string name) => formatOfText name
  | .table _ [(name, _)] => formatOfText name
  | _ => .error .notFormat

/-- Converts a value that may be missing. -/
def decodeOptional
    {α : Type}
    (decode : Value → Except Error α) :
    Option Value → Except Error (Option α)
  | none => .ok none
  | some v => (decode v).map some

/-- A setting that must be there. -/
def require
    {α : Type}
    (name : String) :
    Option α → Except Error α
  | some a => .ok a
  | none => .error (.missingField name)

/-- The order in which settings are converted where it is open: which group comes first, and
which setting of a group that is a table. -/
structure Order where
  inspectFirst : Bool
  secondFirst : Group → Bool

/-- The order in which the settings are declared. -/
def Order.declared : Order := ⟨false, fun _ => false⟩

/-- Two results, or the complaint of the one that fails first. -/
def inOrder
    {α β : Type}
    (secondFirst : Bool)
    (first : Except Error α)
    (second : Except Error β) :
    Except Error (α × β) :=
  if secondFirst then do
    let b ← second
    let a ← first
    pure (a, b)
  else do
    let a ← first
    let b ← second
    pure (a, b)

/-- What is found under two names.  Both are converted before one that is missing is missed. -/
def decodeFields
    {α β : Type}
    (secondFirst : Bool)
    (names : String × String)
    (first : Value → Except Error α)
    (second : Value → Except Error β)
    (found? : String → Option Value) :
    Except Error (α × β) := do
  let (a, b) ← inOrder secondFirst
    (decodeOptional first (found? names.1))
    (decodeOptional second (found? names.2))
  pure (← require names.1 a, ← require names.2 b)

/-- The two settings of a group. -/
def decodeGroup
    {α β : Type}
    (order : Order)
    (group : Group)
    (first : String → Value → Except Error α)
    (second : String → Value → Except Error β) :
    Value → Except Error (α × β)
  | .scalar _ content => .error (.notGroup content group)
  | .array _ [] => .error (.tooFewValues 0 group)
  | .array _ [v] => do
      let _ ← first (group.key ++ "[0]") v
      .error (.tooFewValues 1 group)
  | .array _ (v :: w :: _) => do
      let a ← first (group.key ++ "[0]") v
      let b ← second (group.key ++ "[1]") w
      pure (a, b)
  | .table _ entries =>
      decodeFields (order.secondFirst group) group.fields
        (first (group.key ++ "." ++ group.fields.1))
        (second (group.key ++ "." ++ group.fields.2))
        fun name => Entries.find? name entries

/-- The settings for the scan. -/
def decodeLayout (order : Order) : Value → Except Error (UInt32 × Bool) :=
  decodeGroup order .layout decodeWord decodeBool

/-- The settings for the report. -/
def decodeInspect (order : Order) : Value → Except Error (OutputFormat × Bool) :=
  decodeGroup order .inspect (fun _ => decodeFormat) decodeBool

/-- The settings, converted in some order. -/
def decodeIn
    (order : Order)
    (root : Value) :
    Except Error Settings := do
  let (layout, inspect) ←
    decodeFields order.inspectFirst (Group.layout.key, Group.inspect.key)
      (decodeLayout order) (decodeInspect order) fun name => root.find? name
  pure ⟨⟨layout.1, layout.2⟩, inspect.1, inspect.2⟩

/-- The settings, converted in the order of their declaration.  Where several values do not
convert, the complaint is about the first of these; it may be about any other in another order. -/
def decode (root : Value) : Except Error Settings :=
  decodeIn .declared root

end Settings
end Offside
