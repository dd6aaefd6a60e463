import Chip8.OsError

/-!
# File trees

A tree of directories, files and links, and the way a path is followed in it.

## Limits

A name may have 255 bytes and a whole path 4095, and a path may lead through 40 links, those behind
other links included. The whole path is measured first, a name only when it is looked for, so behind
a missing name or a file its length does not matter. In some parts of a tree names have no limit.
-/

namespace Chip8

/-- A place in a tree, by the names that lead to it from the root, the last one first. -/
abbrev Location := List String

/-- What a name stands for. -/
inductive Node where
  | directory
  | file (bytes : List UInt8)
  /-- A file that the system does not let be read. -/
  | sealed (reason : OsError)
  /-- The place at the end of a path from the root. -/
  | link (path : List String)
  deriving DecidableEq

/-- A tree. The root is a directory and not listed. -/
structure FileTree where
  nodes : List (Location × Node)
  /-- The directory where a path starts that has no slash in front. -/
  working : Location
  /-- The directories of the root below which names have no limit. -/
  unlimited : List String

namespace FileTree

/-- The most bytes a name can have. -/
def nameLimit : Nat := 255

/-- The most bytes a path can have. -/
def pathLimit : Nat := 4095

/-- The most links a path can lead through. -/
def linkLimit : Nat := 40

/-- Where a path has led to. -/
inductive Place where
  | directory (location : Location)
  | file (bytes : List UInt8)
  | sealed (reason : OsError)
  deriving DecidableEq

/-- Whether a name is longer than the names in a directory can be. -/
def isTooLong (tree : FileTree) (location : Location) (name : String) : Bool :=
  nameLimit < name.utf8ByteSize && !location.getLast?.any tree.unlimited.contains

/-- Follows the parts of a path, through at most so many links. Two dots lead up, from the root to
the root itself. -/
def walk (tree : FileTree) (links : Nat) (place : Place) (parts : List String) :
    Except OsError Place :=
  match place, parts with
  | place, [] => .ok place
  -- also for an empty part, as behind a slash at the end
  | .file _, _ :: _ | .sealed _, _ :: _ => .error .notADirectory
  | .directory location, name :: rest =>
    if name = "" ∨ name = "." then tree.walk links (.directory location) rest
    else if name = ".." then tree.walk links (.directory location.tail) rest
    else if tree.isTooLong location name then .error .nameTooLong
    else
      match tree.nodes.lookup (name :: location) with
      | none => .error .noSuchFile
      | some .directory => tree.walk links (.directory (name :: location)) rest
      | some (.file bytes) => tree.walk links (.file bytes) rest
      | some (.sealed reason) => tree.walk links (.sealed reason) rest
      | some (.link path) =>
        match links with
        | 0 => .error .tooManyLinks
        | links + 1 => tree.walk links (.directory []) (path ++ rest)
termination_by (links, parts.length)

/-- Where a path starts: behind a slash in front, in the root. -/
def origin (tree : FileTree) (path : String) : Location :=
  if path.startsWith "/" then [] else tree.working

/-- The bytes of the file at a path. -/
def read (tree : FileTree) (path : String) : Except OsError (List UInt8) := do
  if pathLimit < path.utf8ByteSize then throw .nameTooLong
  match ← tree.walk linkLimit (.directory (tree.origin path)) (path.splitOn "/") with
  | .file bytes => return bytes
  | .sealed reason => throw reason
  | .directory _ => throw .isADirectory

@[simp] theorem walk_nil (tree : FileTree) (links : Nat) (place : Place) :
    tree.walk links place [] = .ok place := by
  rw [walk]

/-- Nothing lies behind a file. -/
@[simp] theorem walk_file (tree : FileTree) (links : Nat) (bytes : List UInt8) (name : String)
    (rest : List String) :
    tree.walk links (.file bytes) (name :: rest) = .error .notADirectory := by
  rw [walk]

/-- However often one goes up from the root, one stays there. -/
theorem walk_up_root (tree : FileTree) (links n : Nat) (rest : List String) :
    tree.walk links (.directory []) (List.replicate n ".." ++ rest) =
      tree.walk links (.directory []) rest := by
  induction n with
  | zero => rfl
  | succ n ih =>
    rw [List.replicate_succ, List.cons_append, walk, if_neg (by decide), if_pos rfl]
    exact ih

end FileTree

end Chip8
