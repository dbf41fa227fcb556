import LaunchEditor.Catalog.File

/-! # Trees of files

What a path leads to in a tree of files, starting from a working directory or, with a slash in
front, from the root.
-/
namespace LaunchEditor

inductive FileTree where
  | file (bytes : ByteArray)
  | directory (entries : List (String × FileTree))

namespace FileTree

/-- Octets of the longest name of a file or directory. -/
def longestName : Nat := 255

/-- Octets of the longest path. -/
def longestPath : Nat := 4095

/-- Follows the components of a path; `above` are the directories around the one it has reached,
the innermost first. -/
def walk (above : List FileTree) (t : FileTree) : List String → FileState
  | [] =>
    match t with
    | file bytes => .file bytes
    | directory _ => .directory
  | name :: rest =>
    match t with
    | file _ => .notDirectory
    | directory entries =>
      if name = "" ∨ name = "." then walk above t rest
      else if name = ".." then
        match above with
        | [] => walk [] t rest
        | outer :: above => walk above outer rest
      else if longestName < name.utf8ByteSize then .nameTooLong
      else match entries.lookup name with
        | some inner => walk (t :: above) inner rest
        | none => .missing

/-- What `path` leads to, for a working directory of the given name right below the root. -/
def find (root : FileTree) (workDir path : String) : FileState :=
  let components := Text.splitOn '/' path
  if '\x00' ∈ path.toList then .unnameable
  else if longestPath < path.utf8ByteSize then .nameTooLong
  else if path = "" then .missing
  else if path.startsWith "/" then walk [] root components
  else walk [] root (workDir :: components)

end FileTree
end LaunchEditor
