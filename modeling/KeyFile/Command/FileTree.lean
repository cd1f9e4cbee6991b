import KeyFile.Text

/-!
# Trees of files

A file is reached from the root by the names of the directories above it and by its own.
`FileTree.read` follows a path: its names are judged from left to right, and whatever another name
or a slash comes after has to be a directory. A path that ends at a directory cannot be read.
-/
namespace KeyFile.Command

/-- Why an input cannot be read. -/
inductive ReadError where
  | notFound
  | notDirectory
  | isDirectory
  | nameTooLong
  | other (message : String)
  deriving DecidableEq, Repr

def ReadError.message : ReadError → String
  | .notFound => "No such file or directory (os error 2)"
  | .notDirectory => "Not a directory (os error 20)"
  | .isDirectory => "Is a directory (os error 21)"
  | .nameTooLong => "File name too long (os error 36)"
  | .other message => message

structure FileTree where
  /-- The content of each file, under the names that lead to it. -/
  files : List (List Text × Bytes)
  /-- The directories that need no file below them. -/
  directories : List (List Text)
  deriving DecidableEq, Repr

namespace FileTree

inductive Entry where
  | file (content : Bytes)
  | directory
  deriving DecidableEq, Repr

/-- What stands at a place. Whatever leads to a file or a directory is a directory too. -/
def entry? (tree : FileTree) (place : List Text) : Option Entry :=
  match tree.files.find? fun file => file.1 = place with
  | some (_, content) => some (.file content)
  | none =>
    if (tree.files.map (·.1) ++ tree.directories).any place.isPrefixOf then some .directory
    else none

/-- The most octets that a name may have. -/
def longestName : Nat := 255

/-- The most octets that a path may have. -/
def longestPath : Nat := 4095

/-- Follows the names of a path from a directory. -/
def follow (tree : FileTree) (place : List Text) : List Text → Except ReadError Bytes
  | [] => .error .isDirectory
  | name :: rest =>
    if name = [] ∨ name = ['.'] then tree.follow place rest
    else if name = ['.', '.'] then tree.follow place.dropLast rest
    else if longestName < (Text.utf8 name).length then .error .nameTooLong
    else
      match tree.entry? (place ++ [name]) with
      | none => .error .notFound
      | some .directory => tree.follow (place ++ [name]) rest
      -- What follows a file may be an empty name, when the path ends with a slash.
      | some (.file content) => if rest = [] then .ok content else .error .notDirectory

/-- The content of the file that a path names, from a working directory unless the path begins with
a slash. -/
def read (tree : FileTree) (workingDirectory : List Text) (path : Text) : Except ReadError Bytes :=
  if path = [] then .error .notFound
  else if longestPath < (Text.utf8 path).length then .error .nameTooLong
  else if path.head? = some '/' then tree.follow [] (Text.split '/' path)
  else tree.follow workingDirectory (Text.split '/' path)

end FileTree

end KeyFile.Command
