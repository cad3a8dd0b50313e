/-! # Directories

The directory that a command runs in holds files and nothing else. `Directory.read?` says which of
them a path leads to: the file of that name, also with steps in front of it that stay where they
are. A path that goes on behind a file leads nowhere, and so does one that leaves the directory. -/

namespace Treewalk

/-- The names of the files of a directory, with their bytes. -/
structure Directory where
  files : List (String × List UInt8)

namespace Directory

/-- Cuts a path at its slashes. -/
def cut : List Char → List (List Char)
  | [] => [[]]
  | c :: rest =>
    if c = '/' then [] :: cut rest
    else
      match cut rest with
      | [] => [[c]]
      | name :: names => (c :: name) :: names

/-- The file at the end of a list of names. No name and a single dot stay in the directory. -/
def follow (d : Directory) : List String → Option (List UInt8)
  | [] => none
  | name :: rest =>
    if name = "" ∨ name = "." then d.follow rest
    else if rest.isEmpty then d.files.lookup name
    else none

/-- The bytes of the file that a path leads to. -/
def read? (d : Directory) (path : String) : Option (List UInt8) :=
  match path.toList with
  | '/' :: _ => none
  | chars => d.follow ((cut chars).map String.ofList)

end Directory

end Treewalk
