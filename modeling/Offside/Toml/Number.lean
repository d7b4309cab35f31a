import Offside.Text.Hex

/-!
# Numbers of TOML

A number is a run of characters up to the next blank, line break, comma,
bracket, brace or comment.  Whole numbers are decimal with an optional sign, or
hexadecimal, octal or binary without one, and have 64 bits.  Other numbers have a
fraction or an exponent, or are infinite or not a number.  An underscore may
stand between two digits.

The forms are those of TOML 1.0, with the ranges that the package `toml`, which
the program takes from outside, documents for them.
-/

namespace Offside
namespace Toml

def digit?
    (base : Nat)
    (c : Char) :
    Option Nat :=
  (Hex.digitValue? c).filter (· < base)

def digitsAfter?
    (base : Nat) :
    List Char → Option (List Nat)
  | [] => some []
  | '_' :: c :: rest => do
      let d ← digit? base c
      let ds ← digitsAfter? base rest
      pure (d :: ds)
  | c :: rest => do
      let d ← digit? base c
      let ds ← digitsAfter? base rest
      pure (d :: ds)

/-- The values of one or more digits with underscores between them. -/
def digits?
    (base : Nat) :
    List Char → Option (List Nat)
  | [] => none
  | c :: rest => do
      let d ← digit? base c
      let ds ← digitsAfter? base rest
      pure (d :: ds)

/-- The number that some digits spell. -/
def numeral
    (base : Nat)
    (digits : List Nat) :
    Nat :=
  digits.foldl (fun n d => base * n + d) 0

/-- A number with 64 bits and a sign. -/
def int64? (i : Int) : Option Int64 :=
  if -9223372036854775808 ≤ i ∧ i ≤ 9223372036854775807 then some (Int64.ofInt i) else none

/-- The digits of a decimal number; only zero itself starts with a zero. -/
def decimalDigits? (cs : List Char) : Option (List Nat) := do
  let ds ← digits? 10 cs
  if cs.head? = some '0' ∧ cs.length ≠ 1 then none else pure ds

/-- A text without its sign, and whether the sign is a minus. -/
def splitSign : List Char → Bool × List Char
  | '-' :: rest => (true, rest)
  | '+' :: rest => (false, rest)
  | cs => (false, cs)

def integer? : List Char → Option Int64
  | '0' :: 'x' :: rest => do int64? (numeral 16 (← digits? 16 rest))
  | '0' :: 'o' :: rest => do int64? (numeral 8 (← digits? 8 rest))
  | '0' :: 'b' :: rest => do int64? (numeral 2 (← digits? 2 rest))
  | cs => do
      let (negative, body) := splitSign cs
      let n := Int.ofNat (numeral 10 (← decimalDigits? body))
      int64? (if negative then -n else n)

/-- The number m · 10^e, or its negative, as a 64-bit binary number. -/
def scaled
    (negative : Bool)
    (mantissa : Nat)
    (exponent : Int) :
    Float :=
  let digits := (Nat.toDigits 10 mantissa).length
  let magnitude :=
    if mantissa = 0 ∨ exponent < -(400 + Int.ofNat digits) then 0.0
    else if 400 < exponent then 1.0 / 0.0
    else Float.ofScientific mantissa (decide (exponent < 0)) exponent.natAbs
  if negative then -magnitude else magnitude

/-- An exponent with its letter, or nothing. -/
def exponent? : List Char → Option Int
  | [] => some 0
  | c :: rest =>
      if c = 'e' ∨ c = 'E' then do
        let (negative, body) := splitSign rest
        let n := Int.ofNat (numeral 10 (← digits? 10 body))
        pure (if negative then -n else n)
      else
        none

/-- Whether a character may stand in the digits of a decimal number. -/
def isDecimalChar (c : Char) : Bool :=
  c.isDigit || c == '_'

/-- A number with a fraction or an exponent, or one of the names for infinity
and for no number.  A number that is too great is refused. -/
def float? (cs : List Char) : Option Float := do
  let (negative, body) := splitSign cs
  if body = ['i', 'n', 'f'] then
    pure (if negative then -(1.0 / 0.0) else 1.0 / 0.0)
  else if body = ['n', 'a', 'n'] then
    pure (0.0 / 0.0)
  else
    let whole ← decimalDigits? (body.takeWhile isDecimalChar)
    let (fraction, rest) ←
      match body.dropWhile isDecimalChar with
      | '.' :: rest => do
          let fraction ← digits? 10 (rest.takeWhile isDecimalChar)
          pure (fraction, rest.dropWhile isDecimalChar)
      | [] => none
      | rest => some ([], rest)
    let exponent ← exponent? rest
    let x :=
      scaled negative (numeral 10 (whole ++ fraction)) (exponent - Int.ofNat fraction.length)
    if x == 1.0 / 0.0 then none else pure x

end Toml
end Offside
