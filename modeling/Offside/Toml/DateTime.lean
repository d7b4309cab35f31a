/-!
# Dates and times of TOML

A date, a time, or a date with a time and perhaps a distance from universal
time.  They are checked against the calendar and the clock, and written in one
form: the letter T between date and time, no zeros at the end of a fraction of a
second, and the letter Z for universal time.

The forms are those of TOML 1.0, read and written as the package `toml`, which
the program takes from outside, documents it.
-/

namespace Offside
namespace Toml

/-- The number of so many digits at the front of a text, and what follows. -/
def digitsExactly?
    (n : Nat)
    (cs : List Char) :
    Option (Nat × List Char) :=
  let digits := cs.take n
  if digits.length = n ∧ digits.all Char.isDigit then
    some (Nat.ofDigitChars 10 digits 0, cs.drop n)
  else
    none

/-- A number of so many digits within bounds. -/
def numberWithin?
    (width low high : Nat)
    (cs : List Char) :
    Option (Nat × List Char) := do
  let (n, rest) ← digitsExactly? width cs
  if low ≤ n ∧ n ≤ high then pure (n, rest) else none

def after?
    (c : Char) :
    List Char → Option (List Char)
  | [] => none
  | d :: rest => if c = d then some rest else none

def zeroPadded (width n : Nat) : List Char :=
  let digits := Nat.toDigits 10 n
  List.replicate (width - digits.length) '0' ++ digits

def daysInMonth (year month : Nat) : Nat :=
  if month = 2 then
    if year % 4 = 0 ∧ (year % 100 ≠ 0 ∨ year % 400 = 0) then 29 else 28
  else if month = 4 ∨ month = 6 ∨ month = 9 ∨ month = 11 then 30
  else 31

/-- A date at the front of a text, and what follows. -/
def date? (cs : List Char) : Option (List Char × List Char) := do
  let (year, cs) ← digitsExactly? 4 cs
  let cs ← after? '-' cs
  let (month, cs) ← numberWithin? 2 1 12 cs
  let cs ← after? '-' cs
  let (day, cs) ← numberWithin? 2 1 (daysInMonth year month) cs
  pure (zeroPadded 4 year ++ '-' :: zeroPadded 2 month ++ '-' :: zeroPadded 2 day, cs)

/-- A fraction of a second, of which the first nine digits count. -/
def fraction? : List Char → Option (List Char × List Char)
  | '.' :: rest =>
      let digits := rest.takeWhile Char.isDigit
      if digits.isEmpty then
        none
      else
        let kept := ((digits.take 9).reverse.dropWhile (· == '0')).reverse
        some (if kept.isEmpty then [] else '.' :: kept, rest.dropWhile Char.isDigit)
  | cs => some ([], cs)

/-- A time of day at the front of a text, and what follows. -/
def time? (cs : List Char) : Option (List Char × List Char) := do
  let (hour, cs) ← numberWithin? 2 0 23 cs
  let cs ← after? ':' cs
  let (minute, cs) ← numberWithin? 2 0 59 cs
  let cs ← after? ':' cs
  let (second, cs) ← numberWithin? 2 0 60 cs
  let (fraction, cs) ← fraction? cs
  pure
    (zeroPadded 2 hour ++ ':' :: zeroPadded 2 minute ++ ':' :: zeroPadded 2 second ++ fraction, cs)

/-- A distance from universal time that fills a text, or nothing. -/
def offset? : List Char → Option (List Char)
  | [] => some []
  | ['Z'] => some ['Z']
  | ['z'] => some ['Z']
  | c :: rest =>
      if c = '+' ∨ c = '-' then do
        let (hour, rest) ← numberWithin? 2 0 23 rest
        let rest ← after? ':' rest
        let (minute, rest) ← numberWithin? 2 0 59 rest
        if rest.isEmpty then
          let sign := if hour = 0 ∧ minute = 0 then '+' else c
          pure (sign :: zeroPadded 2 hour ++ ':' :: zeroPadded 2 minute)
        else
          none
      else
        none

/-- A date, a time or both that fill a text, in their one form. -/
def dateTime? (cs : List Char) : Option (List Char) :=
  match date? cs with
  | some (date, []) => some date
  | some (date, c :: rest) =>
      if c = 'T' ∨ c = 't' ∨ c = ' ' then do
        let (time, rest) ← time? rest
        let offset ← offset? rest
        pure (date ++ 'T' :: time ++ offset)
      else
        none
  | none =>
      match time? cs with
      | some (time, []) => some time
      | _ => none

def startsLikeTime : List Char → Bool
  | a :: b :: ':' :: _ => a.isDigit && b.isDigit
  | _ => false

end Toml
end Offside
