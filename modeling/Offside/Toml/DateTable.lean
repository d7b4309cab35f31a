import Offside.Toml.DateTime
import Offside.Toml.Node

/-!
# Dates written as tables

A table whose first key is the one set aside for dates stands for a date: the
text under that key has to be a date, a time or both, and what else the table
holds does not count.  A table that has the key at a later place is an ordinary
one.  The rule holds at every depth, for the document as a whole too.

The rule is the documented behaviour of the package `toml`, which the program
takes from outside.
-/

namespace Offside
namespace Toml

/-- The key set aside for dates. -/
def dateKey : String := "$__toml_private_datetime"

namespace Entries

/-- Whether the entries of a table stand for a date. -/
def standForDate : Entries → Bool
  | [] => false
  | (key, _) :: _ => key == dateKey

/-- The date, the time or both that a table gives under its first key. -/
def dateTime? : Entries → Option String
  | (_, .string s) :: _ => (Toml.dateTime? s.toList).map String.ofList
  | _ => none

end Entries

mutual

/-- A node with each table in it that stands for a date turned into that date, or
nothing if one of these tables gives no date. -/
def Node.settle? : Node → Option Node
  | .string s => some (.string s)
  | .int i => some (.int i)
  | .float x => some (.float x)
  | .bool b => some (.bool b)
  | .dateTime text => some (.dateTime text)
  | .array items => (settleNodes? items).map .array
  | .inline entries =>
      if Entries.standForDate entries then (Entries.dateTime? entries).map .dateTime
      else (settleEntries? entries).map .inline
  | .table kind entries =>
      if Entries.standForDate entries then (Entries.dateTime? entries).map .dateTime
      else (settleEntries? entries).map (.table kind)
  | .tables items => (settleNodes? items).map .tables

/-- Nodes in order, each with its tables turned into dates where they stand for one. -/
def settleNodes? : List Node → Option (List Node)
  | [] => some []
  | node :: rest => do
      let node ← node.settle?
      let rest ← settleNodes? rest
      pure (node :: rest)

/-- Entries in order, each with its tables turned into dates where they stand for one. -/
def settleEntries? : List (String × Node) → Option (List (String × Node))
  | [] => some []
  | (key, node) :: rest => do
      let node ← node.settle?
      let rest ← settleEntries? rest
      pure ((key, node) :: rest)

end

/-- What a document comes to. -/
inductive Content where
  | entries (entries : Entries)
  | dateTime (text : String)

/-- What the entries at the top level of a document come to. -/
def Entries.content? (entries : Entries) : Option Content :=
  if entries.standForDate then entries.dateTime?.map .dateTime
  else (settleEntries? entries).map .entries

end Toml
end Offside
