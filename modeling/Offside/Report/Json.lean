import Offside.Text.Hex

/-!
# JSON values and their indented form

The indented form puts every element of an array and every field of an object
on a line of its own, two blanks further in than the brackets around it.  Empty
arrays and objects stay on one line.
-/

namespace Offside

/-- The JSON values of which reports are made. -/
inductive Json where
  | number (value : Nat)
  | string (value : List Char)
  | array (items : List Json)
  | object (fields : List (List Char × Json))

namespace Json

def escapeChar (c : Char) : List Char :=
  if c = '\x22' then ['\x5c', '\x22']
  else if c = '\x5c' then ['\x5c', '\x5c']
  else if c = '\x08' then ['\x5c', 'b']
  else if c = '\x0c' then ['\x5c', 'f']
  else if c = '\n' then ['\x5c', 'n']
  else if c = '\r' then ['\x5c', 'r']
  else if c = '\t' then ['\x5c', 't']
  else if c.toNat < 32 then
    ['\x5c', 'u', '0', '0', Hex.digit (c.toNat / 16), Hex.digit (c.toNat % 16)]
  else [c]

def quote (cs : List Char) : List Char :=
  '\x22' :: cs.flatMap escapeChar ++ ['\x22']

/-- A line break and the indentation of the line after it. -/
def freshLine (depth : Nat) : List Char :=
  '\n' :: List.replicate (2 * depth) ' '

mutual

/-- The indented form of a value inside so many brackets. -/
def indented (depth : Nat) : Json → List Char
  | number n => Nat.toDigits 10 n
  | string cs => quote cs
  | array [] => ['[', ']']
  | array (item :: rest) =>
      '[' :: freshLine (depth + 1) ++ indented (depth + 1) item
        ++ indentedItems (depth + 1) rest ++ freshLine depth ++ [']']
  | object [] => ['\x7b', '\x7d']
  | object ((name, value) :: rest) =>
      '\x7b' :: freshLine (depth + 1) ++ quote name ++ [':', ' '] ++ indented (depth + 1) value
        ++ indentedFields (depth + 1) rest ++ freshLine depth ++ ['\x7d']

/-- The elements of an array after the first one. -/
def indentedItems (depth : Nat) : List Json → List Char
  | [] => []
  | item :: rest =>
      ',' :: freshLine depth ++ indented depth item ++ indentedItems depth rest

/-- The fields of an object after the first one. -/
def indentedFields (depth : Nat) : List (List Char × Json) → List Char
  | [] => []
  | (name, value) :: rest =>
      ',' :: freshLine depth ++ quote name ++ [':', ' '] ++ indented depth value
        ++ indentedFields depth rest

end

/-- The indented form of a value that stands alone. -/
def render (value : Json) : List Char :=
  value.indented 0

end Json
end Offside
