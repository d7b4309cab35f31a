/-!
# Files as a program sees them

A program sees what a path leads to.  A directory, given by the names and the
contents of the files in it, offers such a view: names may have several parts,
and every part but the last one is a directory.
-/

namespace Offside

inductive PathTarget where
  | file (content : ByteArray)
  | directory
  | missing
  /-- Nothing, since a part that has parts behind it is a file. -/
  | throughFile

abbrev FileView : Type := String → PathTarget

namespace PathTarget

def isFile : PathTarget → Bool
  | file _ => true
  | _ => false

end PathTarget

/-- Why a file is not read as text. -/
inductive ReadError where
  | notFound
  | isDirectory
  | notDirectory
  | notText
  deriving DecidableEq, Repr

namespace ReadError

def message : ReadError → String
  | notFound => "No such file or directory (os error 2)"
  | isDirectory => "Is a directory (os error 21)"
  | notDirectory => "Not a directory (os error 20)"
  | notText => "stream did not contain valid UTF-8"

end ReadError

/-- Reads what a path leads to as text. -/
def PathTarget.readText : PathTarget → Except ReadError String
  | .file content =>
      match String.fromUTF8? content with
      | some text => .ok text
      | none => .error .notText
  | .directory => .error .isDirectory
  | .missing => .error .notFound
  | .throughFile => .error .notDirectory

/-- The parts of a path between its slashes; some of them may be empty. -/
def pathParts (path : String) : List String :=
  (path.toList.splitOn '/').map String.ofList

/-- The files below a directory, each with the parts of its path. -/
structure Directory where
  /-- Path and content of each file. -/
  files : List (List String × ByteArray)

namespace Directory

/-- The directory that holds these files. -/
def ofFiles (files : List (String × ByteArray)) : Directory :=
  ⟨files.map fun file => ((pathParts file.1).filter fun part => part != "" && part != ".", file.2)⟩

/-- The content of the file with exactly these parts. -/
def content?
    (d : Directory)
    (parts : List String) :
    Option ByteArray :=
  (d.files.find? fun file => file.1 == parts).map Prod.snd

/-- Whether some file lies below these parts. -/
def hasBelow
    (d : Directory)
    (parts : List String) :
    Bool :=
  parts.isEmpty
    || d.files.any fun file => parts.isPrefixOf file.1 && decide (parts.length < file.1.length)

/-- What some parts lead to from a directory inside this one. -/
def follow
    (d : Directory)
    (here : List String) :
    List String → PathTarget
  | [] => .directory
  | part :: rest =>
      if part = "" ∨ part = "." then
        d.follow here rest
      else if part = ".." then
        if here.isEmpty then
          if rest.all (fun p => p == "" || p == "." || p == "..") then .directory else .missing
        else
          d.follow here.dropLast rest
      else if d.hasBelow (here ++ [part]) then
        d.follow (here ++ [part]) rest
      else
        match d.content? (here ++ [part]) with
        | none => .missing
        | some content => if rest.isEmpty then .file content else .throughFile

/-- What each path leads to, seen from the directory. -/
def view (d : Directory) : FileView := fun path =>
  match pathParts path with
  | [""] => .missing
  | "" :: rest => if rest.all (fun p => p == "" || p == "." || p == "..") then .directory else .missing
  | parts => d.follow [] parts

end Directory
end Offside
