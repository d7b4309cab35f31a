/-!
# TOML documents as trees

A document is a tree of tables.  A table is opened by a header, or it comes
about because a header or a key with several parts leads through it; which of
these it was decides what may still be added to it.

Every key is defined once.  A header may open a table that so far was only led
through by other headers.  Keys with several parts may add to tables that they
made themselves.

These are the rules of TOML 1.0, which the package `toml`, taken from outside by
the program, documents as its own.
-/

namespace Offside
namespace Toml

inductive TableKind where
  /-- A header opened it, or it is an element of an array of tables. -/
  | opened
  /-- A header leads through it. -/
  | passed
  /-- A key with several parts leads through it. -/
  | dotted
  deriving DecidableEq, Repr

/-- A value of a document or a table in it. -/
inductive Node where
  | string (s : String)
  | int (i : Int64)
  | float (x : Float)
  | bool (b : Bool)
  /-- A date, a time or both, as text. -/
  | dateTime (text : String)
  | array (items : List Node)
  | inline (entries : List (String × Node))
  /-- A table that can be added to. -/
  | table (kind : TableKind) (entries : List (String × Node))
  /-- Tables that were opened under one header, in order. -/
  | tables (items : List Node)

/-- The entries of a table, in the order in which they were defined. -/
abbrev Entries : Type := List (String × Node)

namespace Entries

def find?
    (key : String)
    (entries : Entries) :
    Option Node :=
  (List.find? (fun entry => entry.1 == key) entries).map Prod.snd

/-- Puts something under a key in place of what is there, or else at the end. -/
def put
    (key : String)
    (node : Node) :
    Entries → Entries
  | [] => [(key, node)]
  | (k, old) :: rest =>
      if k = key then (k, node) :: rest else (k, old) :: put key node rest

/-- Defines a key of several parts in a table of the given kind. -/
def define
    (last : String)
    (node : Node) :
    List String → TableKind → Bool → Entries → Option Entries
  | [], kind, throughKey, entries =>
      if decide (kind = .dotted) != throughKey then none
      else if (find? last entries).isSome then none
      else some (put last node entries)
  | key :: path, _, _, entries =>
      match find? key entries with
      | none => do
          let inner ← define last node path .dotted true []
          pure (put key (.table .dotted inner) entries)
      | some (.table .opened _) => none
      | some (.table kind inner) => do
          let inner ← define last node path kind true inner
          pure (put key (.table kind inner) entries)
      | some (.tables items) =>
          match items.getLast? with
          | some (.table kind inner) => do
              let inner ← define last node path kind true inner
              pure (put key (.tables (items.dropLast ++ [.table kind inner])) entries)
          | _ => none
      | some _ => none

/-- Changes the table that a path of headers leads to. -/
def within
    (change : Entries → Option Entries) :
    List String → Entries → Option Entries
  | [], entries => change entries
  | key :: path, entries =>
      match find? key entries with
      | none => do
          let inner ← within change path []
          pure (put key (.table .passed inner) entries)
      | some (.table kind inner) => do
          let inner ← within change path inner
          pure (put key (.table kind inner) entries)
      | some (.tables items) =>
          match items.getLast? with
          | some (.table kind inner) => do
              let inner ← within change path inner
              pure (put key (.tables (items.dropLast ++ [.table kind inner])) entries)
          | _ => none
      | some _ => none

/-- Puts something under a key behind all else. -/
def putLast
    (key : String)
    (node : Node)
    (entries : Entries) :
    Entries :=
  List.filter (fun entry => entry.1 != key) entries ++ [(key, node)]

/-- Opens the table of a header.  A table that so far was only led through moves
behind the others. -/
def openTable
    (key : String)
    (entries : Entries) :
    Option Entries :=
  match find? key entries with
  | none => some (put key (.table .opened []) entries)
  | some (.table .passed inner) => some (putLast key (.table .opened inner) entries)
  | some _ => none

/-- Opens one more element of an array of tables. -/
def openElement
    (key : String)
    (entries : Entries) :
    Option Entries :=
  match find? key entries with
  | none => some (put key (.tables [.table .opened []]) entries)
  | some (.tables items) => some (put key (.tables (items ++ [.table .opened []])) entries)
  | some _ => none

end Entries
end Toml
end Offside
