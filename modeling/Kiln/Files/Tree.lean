import Kiln.Files.Reading

/-!
# File trees held in memory

A tree of directories and files in which paths are followed name by name, as from
a working directory: an empty name and `.` stay, `..` goes up, and every name but
the last must lead to a directory.  A path that begins with a slash is followed
from above the tree.
-/

namespace Kiln

/-- What a path leads to. -/
inductive FileEntry where
  | file (octets : List UInt8)
  | directory

/-- A file tree: entries by the names that lead to them. -/
structure FileTree where
  entries : List (List String × FileEntry)

namespace FileTree

/-- The tree with nothing in it. -/
def empty : FileTree := ⟨[]⟩

/-- The names of a path, also the empty ones. -/
def names (path : String) : List String := path.splitOn "/"

/-- Puts an entry at a path, together with the directories above it. -/
def insert (tree : FileTree) (path : String) (entry : FileEntry) : FileTree :=
  let place := (names path).filter fun name => name != "" && name != "."
  ⟨tree.entries.filter (fun e => e.1 != place) ++ [(place, entry)]⟩

/-- The entry at a place; a place above another entry is a directory. -/
def entry? (tree : FileTree) (place : List String) : Option FileEntry :=
  match tree.entries.find? fun e => e.1 == place with
  | some e => some e.2
  | none =>
    if place.isEmpty || tree.entries.any fun e => place.isPrefixOf e.1 then some .directory
    else none

/-- Follows names from a place.  `none` stands for a place above the tree, which
has no entries.  A name that is too long is refused where it is looked up, so a
fault of an earlier name comes first. -/
def follow (tree : FileTree) (place : Option (List String)) :
    List String → Except ReadFailure (List UInt8)
  | [] => .error .isDirectory
  | name :: rest =>
    if name = "" ∨ name = "." then tree.follow place rest
    else if name = ".." then
      match place with
      | none | some [] => tree.follow none rest
      | some names => tree.follow (some names.dropLast) rest
    else if maxNameSize < name.utf8ByteSize then .error .nameTooLong
    else
      match place with
      | none => .error .missing
      | some names =>
        match tree.entry? (names ++ [name]) with
        | none => .error .missing
        | some .directory => tree.follow (some (names ++ [name])) rest
        | some (.file octets) => if rest.isEmpty then .ok octets else .error .notDirectory

/-- Reads the file at a path relative to the tree. -/
def read (tree : FileTree) : Files := fun path =>
  match refusalOfPath? path with
  | some failure => .error failure
  | none => tree.follow (if path.toList.head? = some '/' then none else some []) (names path)

end FileTree
end Kiln
