/-!
# Paths to settings

A path starts with a name and goes on with names after points and with
positions in brackets.  Names consist of letters, digits, underscores, hyphens
and blanks; a position may have a minus sign and blanks around it.

This is the documented grammar of paths of the package `config`, which the
program takes from outside.
-/

namespace Offside
namespace Settings

/-- A step from a value to a part of it. -/
inductive Segment where
  | child (name : String)
  /-- The value at a position, counted from the end when it is negative. -/
  | index (i : Int)
  deriving DecidableEq, Repr

/-- A way to a part of the settings. -/
structure KeyPath where
  head : String
  steps : List Segment
  deriving DecidableEq, Repr

namespace KeyPath

def isNameChar (c : Char) : Bool :=
  c.isAlphanum || c == '_' || c == '-' || c == ' '

/-- Whether a character may stand around a position. -/
def isBlank (c : Char) : Bool :=
  c == ' ' || c == '\t'

/-- A whole number from its digits. -/
def digits? (cs : List Char) : Option Nat :=
  if cs.isEmpty || !cs.all Char.isDigit then none else some (Nat.ofDigitChars 10 cs 0)

/-- A position from the characters between the brackets. -/
def position? (cs : List Char) : Option Int :=
  let body := ((cs.dropWhile isBlank).reverse.dropWhile isBlank).reverse
  let value :=
    match body with
    | '-' :: rest => (digits? rest).map fun n => -(Int.ofNat n)
    | rest => (digits? rest).map Int.ofNat
  value.filter fun i => decide (-9223372036854775808 ≤ i ∧ i ≤ 9223372036854775807)

theorem length_dropWhile_le
    (p : Char → Bool)
    (cs : List Char) :
    (cs.dropWhile p).length ≤ cs.length :=
  (List.dropWhile_sublist p).length_le

/-- The steps that some characters spell. -/
def steps? : List Char → Option (List Segment)
  | [] => some []
  | '.' :: rest =>
      let name := rest.takeWhile isNameChar
      if name.isEmpty then
        none
      else
        (steps? (rest.dropWhile isNameChar)).map (.child (String.ofList name) :: ·)
  | '[' :: rest =>
      match position? (rest.takeWhile (· != ']')) with
      | none => none
      | some i =>
          match _h : rest.dropWhile (· != ']') with
          | ']' :: after => (steps? after).map (.index i :: ·)
          | _ => none
  | _ => none
termination_by cs => cs.length
decreasing_by
  · have := length_dropWhile_le isNameChar rest
    simp only [List.length_cons]
    omega
  · have := length_dropWhile_le (· != ']') rest
    rw [_h] at this
    simp only [List.length_cons] at this ⊢
    omega

def parse? (s : String) : Option KeyPath :=
  let name := s.toList.takeWhile isNameChar
  if name.isEmpty then
    none
  else
    (steps? (s.toList.dropWhile isNameChar)).map fun steps => ⟨String.ofList name, steps⟩

/-- The path to one key at the top level, whatever characters it has. -/
def literal (key : String) : KeyPath := ⟨key, []⟩

end KeyPath
end Settings
end Offside
