/-!
# The shortest decimal of a binary number

A positive number m · 2^q is written with the fewest digits that still read
back as the same binary number: the interval of reals that are rounded to it is
known, and the coarsest power of ten that has a multiple in the interval is
taken.  Of two such multiples the nearer one wins, and of two equally near the
greater one.

Numbers are written without an exponent, and a whole number keeps a point and
one zero.
-/

namespace Offside
namespace Shortest

/-- A positive number m · 2^q, and whether its lower neighbour is only half as
far away as its upper one. -/
structure Binary where
  mantissa : Nat
  exponent : Int
  /-- Whether m is the least mantissa of its exponent. -/
  boundary : Bool

/-- A number d · 10^k. -/
structure Decimal where
  digits : Nat
  exponent : Int
  deriving DecidableEq, Repr

/-- The multiple of 10^k nearest to a number among the two around it, if one of
them is rounded to the number. -/
def multiple?
    (b : Binary)
    (k : Int) :
    Option Nat :=
  let twos := (2 - b.exponent).toNat
  let tens := (-k).toNat
  let scale := Nat.pow 2 (b.exponent - 2 + twos).toNat * Nat.pow 10 tens
  let value := 4 * b.mantissa * scale
  let low := (4 * b.mantissa - if b.boundary then 1 else 2) * scale
  let high := (4 * b.mantissa + 2) * scale
  let unit := Nat.pow 2 twos * Nat.pow 10 (k + tens).toNat
  let floor := value / unit
  let closed := b.mantissa % 2 == 0
  let inside (d : Nat) : Bool :=
    decide (low < d * unit ∧ d * unit < high)
      || closed && (d * unit == low || d * unit == high)
  match decide (0 < floor) && inside floor, inside (floor + 1) with
  | true, true =>
      if value - floor * unit < (floor + 1) * unit - value then some floor else some (floor + 1)
  | true, false => some floor
  | false, true => some (floor + 1)
  | false, false => none

/-- The exponents of ten that are tried, greatest first. -/
def exponents : List Int :=
  (List.range 635).map fun i => 309 - Int.ofNat i

def decimal (b : Binary) : Decimal :=
  (exponents.findSome? fun k => (multiple? b k).map fun d => ⟨d, k⟩).getD ⟨0, 0⟩

def positional (d : Decimal) : List Char :=
  let digits := Nat.toDigits 10 d.digits
  if 0 ≤ d.exponent then
    digits ++ List.replicate d.exponent.toNat '0' ++ ['.', '0']
  else
    let places := (-d.exponent).toNat
    let padded := List.replicate (places + 1 - digits.length) '0' ++ digits
    padded.take (padded.length - places) ++ '.' :: padded.drop (padded.length - places)

/-- The least mantissa of a number that has all its digits. -/
def leastMantissa : Nat := 4503599627370496

/-- The text of a number from its sign, its exponent field and its fraction field. -/
def ofFields
    (negative : Bool)
    (exponent fraction : Nat) :
    List Char :=
  let sign := if negative then ['-'] else []
  if exponent = 2047 then
    if fraction = 0 then sign ++ ['i', 'n', 'f'] else ['N', 'a', 'N']
  else if exponent = 0 then
    if fraction = 0 then
      sign ++ ['0', '.', '0']
    else
      sign ++ positional (decimal ⟨fraction, -1074, false⟩)
  else
    sign ++ positional
      (decimal ⟨fraction + leastMantissa, Int.ofNat exponent - 1075, fraction == 0 && decide (1 < exponent)⟩)

def ofFloat (x : Float) : String :=
  let bits := x.toBits.toNat
  String.ofList (ofFields (bits / leastMantissa / 2048 == 1) (bits / leastMantissa % 2048) (bits % leastMantissa))

end Shortest
end Offside
