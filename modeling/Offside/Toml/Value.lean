import Offside.Toml.DateTime
import Offside.Toml.Node
import Offside.Toml.Number
import Offside.Toml.Text

/-!
# Values of TOML

A value is a text, a number, a truth value, a date or a time, an array in
brackets or a table in braces.  Arrays may go over several lines and hold
comments; tables in braces stay on one line.  Brackets and braces may be nested
to a fixed depth.

The forms are those of TOML 1.0; the depth is the documented limit of the
package `toml`, which the program takes from outside.
-/

namespace Offside
namespace Toml

/-- The characters behind a comment, if they start with one, up to the end of
its line; a comment with a control character is refused. -/
def skipComment? : List Char → Option (List Char)
  | '#' :: rest =>
      match rest.dropWhile isPlain with
      | [] => some []
      | '\n' :: rest => some ('\n' :: rest)
      | '\r' :: '\n' :: rest => some ('\n' :: rest)
      | _ => none
  | cs => some cs

/-- The characters behind blanks, line breaks and comments; the text may start
inside a comment. -/
def skipFiller?
    (inComment : Bool) :
    List Char → Option (List Char)
  | [] => some []
  | '\r' :: '\n' :: rest => skipFiller? false rest
  | '\n' :: rest => skipFiller? false rest
  | c :: rest =>
      if inComment then
        if isPlain c then skipFiller? true rest else none
      else if isBlank c then skipFiller? false rest
      else if c = '#' then skipFiller? true rest
      else some (c :: rest)

/-- Whether a character ends a number, a truth value or a date. -/
def endsToken (c : Char) : Bool :=
  isBlank c || c == '\n' || c == '\r' || c == '#' || c == ',' || c == ']' || c == '\x7d'

/-- A number, a truth value or a date that fills a run of characters. -/
def token? (cs : List Char) : Option Node :=
  if cs = ['t', 'r', 'u', 'e'] then some (.bool true)
  else if cs = ['f', 'a', 'l', 's', 'e'] then some (.bool false)
  else
    match dateTime? cs with
    | some text => some (.dateTime (String.ofList text))
    | none =>
        match float? cs with
        | some x => some (.float x)
        | none => (integer? cs).map .int

/-- A number, a truth value or a date, and what follows.  A time may stand one
space behind a date. -/
def scalar? (cs : List Char) : Option (Node × List Char) :=
  let token := cs.takeWhile fun c => !endsToken c
  let rest := cs.dropWhile fun c => !endsToken c
  match date? token, rest with
  | some (_, []), ' ' :: more =>
      if startsLikeTime more then
        (token? (token ++ ' ' :: more.takeWhile fun c => !endsToken c)).map fun node =>
          (node, more.dropWhile fun c => !endsToken c)
      else
        (token? token).map fun node => (node, rest)
  | _, _ => (token? token).map fun node => (node, rest)

/-- Defines a key of one or more parts in a table. -/
def defineKey
    (parts : List String)
    (node : Node)
    (entries : Entries) :
    Option Entries :=
  match parts.getLast? with
  | none => none
  | some last => Entries.define last node parts.dropLast .opened false entries

mutual

/-- A value, and what follows.  The first number bounds the steps, the second
one the brackets and braces that may still be opened. -/
def value? : Nat → Nat → List Char → Option (Node × List Char)
  | 0, _, _ => none
  | fuel + 1, depth, cs =>
      match cs with
      | '\x22' :: _ => (text? cs).map fun r => (.string (String.ofList r.1), r.2)
      | '\x27' :: _ => (text? cs).map fun r => (.string (String.ofList r.1), r.2)
      | '[' :: rest =>
          match depth with
          | 0 => none
          | depth + 1 => do
              let rest ← skipFiller? false rest
              match rest with
              | ']' :: rest => pure (.array [], rest)
              | rest => do
                  let (items, rest) ← items? fuel depth rest
                  pure (.array items, rest)
      | '\x7b' :: rest =>
          match depth with
          | 0 => none
          | depth + 1 =>
              match rest.dropWhile isBlank with
              | '\x7d' :: rest => some (.inline [], rest)
              | rest => do
                  let (entries, rest) ← pairs? fuel depth [] rest
                  pure (.inline entries, rest)
      | _ => scalar? cs

/-- The values of an array up to its closing bracket, at least one. -/
def items? : Nat → Nat → List Char → Option (List Node × List Char)
  | 0, _, _ => none
  | fuel + 1, depth, cs => do
      let (node, rest) ← value? fuel depth cs
      let rest ← skipFiller? false rest
      match rest with
      | ']' :: rest => pure ([node], rest)
      | ',' :: rest => do
          let rest ← skipFiller? false rest
          match rest with
          | ']' :: rest => pure ([node], rest)
          | rest => do
              let (nodes, rest) ← items? fuel depth rest
              pure (node :: nodes, rest)
      | _ => none

/-- The entries of a table in braces up to the closing one, at least one, after
those that were read before. -/
def pairs? : Nat → Nat → Entries → List Char → Option (Entries × List Char)
  | 0, _, _, _ => none
  | fuel + 1, depth, before, cs => do
      let (key, rest) ← key? cs
      match rest with
      | '=' :: rest => do
          let (node, rest) ← value? fuel depth (rest.dropWhile isBlank)
          let entries ← defineKey key node before
          match rest.dropWhile isBlank with
          | '\x7d' :: rest => pure (entries, rest)
          | ',' :: rest => pairs? fuel depth entries rest
          | _ => none
      | _ => none

end

end Toml
end Offside
