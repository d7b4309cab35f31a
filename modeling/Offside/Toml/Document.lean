import Offside.Toml.DateTable
import Offside.Toml.Value

/-!
# TOML documents

A document is a sequence of lines: headers of tables, keys with values, blank
lines and comments.  A key belongs to the table of the last header.

The rules are those of TOML 1.0 and the documented ones of the package `toml`,
which the program takes from outside.
-/

namespace Offside
namespace Toml

/-- The tables read so far, and the path of the last header. -/
structure Document where
  root : Entries
  header : List String

namespace Document

def empty : Document := ⟨[], []⟩

/-- Opens a table under a header of one or more parts. -/
def openHeader
    (d : Document)
    (parts : List String)
    (element : Bool) :
    Option Document := do
  let last ← parts.getLast?
  let change := if element then Entries.openElement last else Entries.openTable last
  let root ← Entries.within change parts.dropLast d.root
  pure ⟨root, parts⟩

/-- Defines a key in the table of the last header. -/
def define
    (d : Document)
    (parts : List String)
    (node : Node) :
    Option Document := do
  let root ← Entries.within (defineKey parts node) d.header d.root
  pure { d with root }

end Document

/-- The characters behind the end of a line, before which only blanks and a
comment may stand. -/
def lineEnd? (cs : List Char) : Option (List Char) := do
  let rest ← skipComment? (cs.dropWhile isBlank)
  match rest with
  | [] => pure []
  | '\n' :: rest => pure rest
  | '\r' :: '\n' :: rest => pure rest
  | _ => none

/-- A line with a header, after its first bracket. -/
def headerLine?
    (d : Document) :
    List Char → Option (Document × List Char)
  | '[' :: rest => do
      let (parts, rest) ← key? rest
      match rest with
      | ']' :: ']' :: rest => do
          let rest ← lineEnd? rest
          let d ← d.openHeader parts true
          pure (d, rest)
      | _ => none
  | rest => do
      let (parts, rest) ← key? rest
      match rest with
      | ']' :: rest => do
          let rest ← lineEnd? rest
          let d ← d.openHeader parts false
          pure (d, rest)
      | _ => none

/-- A line with a key and its value. -/
def keyLine?
    (d : Document)
    (cs : List Char) :
    Option (Document × List Char) := do
  let (parts, rest) ← key? cs
  match rest with
  | '=' :: rest => do
      let (node, rest) ← value? (rest.length + 1) greatestDepth (rest.dropWhile isBlank)
      let rest ← lineEnd? rest
      let d ← d.define parts node
      pure (d, rest)
  | _ => none

/-- The document after one line that does not start with blanks, and what follows. -/
def line?
    (d : Document) :
    List Char → Option (Document × List Char)
  | '\n' :: rest => some (d, rest)
  | '\r' :: '\n' :: rest => some (d, rest)
  | '#' :: rest => (lineEnd? ('#' :: rest)).map fun rest => (d, rest)
  | '[' :: rest => headerLine? d rest
  | rest => keyLine? d rest

/-- The document after some more lines, at most so many. -/
def lines? : Nat → Document → List Char → Option Document
  | 0, _, _ => none
  | fuel + 1, d, cs =>
      match cs.dropWhile isBlank with
      | [] => some d
      | rest => do
          let (d, rest) ← line? d rest
          lines? fuel d rest

/-- A text without a byte order mark at its start. -/
def trimMark : List Char → List Char
  | c :: rest => if c.toNat = 0xFEFF then rest else c :: rest
  | [] => []

/-- What the document that a text spells comes to. -/
def parse? (source : String) : Option Content :=
  let cs := trimMark source.toList
  (lines? (cs.length + 1) Document.empty cs).bind fun d => d.root.content?

end Toml
end Offside
