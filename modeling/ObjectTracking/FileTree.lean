/-! # File trees

What stands below one directory. A path is followed component by component; what it passes through
has to be a directory. Writing a file makes the directories on the way to it. -/

namespace ObjectTracking

namespace FileName

def maxBytes : Nat := 255

/-- A file of that name can be made in a directory: it leads nowhere else and is not too long. -/
def isPlain (name : String) : Bool :=
  !(["", ".", ".."].contains name) && name.toList.all (fun c => c ≠ '/' && c ≠ '\x00') &&
    name.utf8ByteSize ≤ maxBytes

end FileName

/-- The files and directories below a directory, each named by the components of its path. -/
structure FileTree (β : Type) where
  /-- Directories that were made. Those on the way to something need not be listed. -/
  dirs : List (List String)
  files : List (List String × β)

namespace FileTree
variable {β : Type}

def empty : FileTree β := ⟨[], []⟩

def file? (tree : FileTree β) (path : List String) : Option β := tree.files.lookup path

/-- There is a directory with these components: the root, one that was made, or one on the way to
something. -/
def hasDir (tree : FileTree β) (dir : List String) : Bool :=
  dir.isEmpty || tree.dirs.any dir.isPrefixOf ||
    tree.files.any fun (path, _) => dir.length < path.length && dir.isPrefixOf path

/-! ### Reading -/

/-- Follows a path from a directory. Empty components and single dots stay where they are, double
dots go back up; above the root there is nothing to be found. -/
def follow? (tree : FileTree β) : (dir : List String) → List String → Option (List String)
  | dir, [] => some dir
  | dir, component :: rest =>
    if !tree.hasDir dir then none
    else if component = "" || component = "." then tree.follow? dir rest
    else if component = ".." then if dir.isEmpty then none else tree.follow? dir.dropLast rest
    else tree.follow? (dir ++ [component]) rest

def maxPathBytes : Nat := 4095

/-- What the file at a path below the root holds. A path that starts elsewhere or is too long leads
nowhere. -/
def read? (tree : FileTree β) (path : String) : Option β := do
  if path.startsWith "/" || maxPathBytes < path.utf8ByteSize then none
  tree.file? (← tree.follow? [] (path.splitOn "/"))

/-- What stands in a directory, each name once: files with what they hold, directories with
nothing. -/
def contents (tree : FileTree β) (dir : List String) : List (String × Option β) :=
  let below := (tree.dirs ++ tree.files.map (·.1)).filter dir.isPrefixOf
  (below.filterMap (·[dir.length]?)).eraseDups.map fun name => (name, tree.file? (dir ++ [name]))

/-! ### Writing -/

/-- Follows a path from a directory and makes what is missing on it. A file on the way, a name that
no directory can have, or a step above the root stops it. -/
def makeDirs (tree : FileTree β) : (dir : List String) → List String →
    Option (FileTree β × List String)
  | dir, [] => some (tree, dir)
  | dir, component :: rest =>
    if component = "" || component = "." then tree.makeDirs dir rest
    else if component = ".." then if dir.isEmpty then none else tree.makeDirs dir.dropLast rest
    else
      let dir := dir ++ [component]
      if !FileName.isPlain component || (tree.file? dir).isSome then none
      else makeDirs { tree with dirs := dir :: tree.dirs } dir rest

/-- Makes the directory at a path, and those on the way to it, unless that is impossible. -/
def makeDir (tree : FileTree β) (path : String) : FileTree β :=
  if path.startsWith "/" then tree
  else ((tree.makeDirs [] (path.splitOn "/")).map (·.1)).getD tree

/-- Writes a file at a path, in place of the one there was. Where a directory stands, nothing is
written. -/
def write (tree : FileTree β) (path : String) (content : β) : FileTree β :=
  let components := path.splitOn "/"
  let name := components.getLastD ""
  if path.startsWith "/" || !FileName.isPlain name then tree
  else
    match tree.makeDirs [] components.dropLast with
    | none => tree
    | some (tree, dir) =>
      let place := dir ++ [name]
      if tree.hasDir place then tree
      else { tree with files := (place, content) :: tree.files.filter (·.1 ≠ place) }

end FileTree

end ObjectTracking
