/-! Trees of files around one root directory: directories, files and symbolic links.
Paths are lists of names from the root, and ".." at their front leads above it, where there are
directories only until something is made there. A path is followed link by link, forty links at
most. Names have 255 bytes at most and no null character, and paths have 4095 bytes at most. -/
namespace SearchBar

abbrev FilePath := List String

/-- The names of a path in its usual writing, without empty names and single dots. -/
def FilePath.ofText (text : String) : FilePath :=
  (text.splitOn "/").filter fun name => name != "" && name != "."

def FilePath.text (root : String) (path : FilePath) : String :=
  "/".intercalate (root :: path)

def FilePath.longestName : Nat := 255

def FilePath.up (place : FilePath) : FilePath :=
  match place.getLast? with
  | none | some ".." => place ++ [".."]
  | some _ => place.dropLast

/-- The most bytes of a path from the root, with a slash before each name. Sixteen bytes more
belong to the root itself. -/
def FilePath.longest : Nat := 4079

def FilePath.isLong (path : FilePath) : Bool :=
  FilePath.longest < (path.text "").utf8ByteSize

def FilePath.isNullName (name : String) : Bool :=
  name.toList.contains '\x00'

inductive FileNode where
  | directory
  | file (content : ByteArray)
  | link (target : FilePath)

structure FileTree where
  nodes : List (FilePath × FileNode)

namespace FileTree

def empty : FileTree := ⟨[]⟩

def node? (tree : FileTree) (path : FilePath) : Option FileNode :=
  if path.all (· == "..") then some .directory else tree.nodes.lookup path

inductive Destination where
  | found (path : FilePath)
  /-- There is nothing there, but the directory that would hold it is there. -/
  | vacant (path : FilePath)
  | missing
  | blocked
  | loop
  | longName
  | nullName
  deriving DecidableEq, Repr

def mostLinks : Nat := 40

def follow (tree : FileTree) (links : Nat) (place : FilePath) (names : List String) :
    Destination :=
  match names with
  | [] => .found place
  | ".." :: rest => follow tree links (FilePath.up place) rest
  | name :: rest =>
    if FilePath.longestName < name.utf8ByteSize then .longName
    else
      let child := place ++ [name]
      match tree.node? child with
      | none => if rest.isEmpty then .vacant child else .missing
      | some .directory => follow tree links child rest
      | some (.file _) => if rest.isEmpty then .found child else .blocked
      | some (.link target) =>
        match links with
        | 0 => .loop
        | links + 1 => follow tree links [] (target ++ rest)
termination_by (links, names.length)

inductive Resolution where
  | plain (path : FilePath)
  /-- A link leads back to itself; from there on the names are left as they are. -/
  | circular (path : FilePath)
  | nullName
  deriving DecidableEq, Repr

/-- Follows the names from a directory, and goes on by name alone where nothing is. The
links in `passing` are being followed, at most `depth` more of them one inside the other. -/
def resolve (tree : FileTree) (depth : Nat) (passing : List FilePath) (place : FilePath)
    (names : List String) : Resolution :=
  match names with
  | [] => .plain place
  | ".." :: rest => resolve tree depth passing (FilePath.up place) rest
  | name :: rest =>
    let child := place ++ [name]
    if FilePath.isNullName name then .nullName
    else
      match tree.node? child with
      | some (.link target) =>
        if passing.contains child then .circular (child ++ rest)
        else
          match depth with
          | 0 => .circular (child ++ rest)
          | depth + 1 =>
            match resolve tree depth (child :: passing) [] target with
            | .circular path => .circular (path ++ rest)
            | .plain path => resolve tree (depth + 1) passing path rest
            | .nullName => .nullName
      | _ => resolve tree depth passing child rest
termination_by (depth, names.length)

def byName (place : FilePath) : List String → FilePath
  | [] => place
  | ".." :: rest => byName (FilePath.up place) rest
  | name :: rest => byName (place ++ [name]) rest

def destination (tree : FileTree) (path : FilePath) : Destination :=
  if path.any FilePath.isNullName then .nullName
  else if path.isLong then .longName
  else tree.follow mostLinks [] path

inductive ResolveFault where
  | loop
  | nullName
  deriving DecidableEq, Repr

/-- The path without links. Behind a link that leads back to itself it is taken by name,
unless that link is still on the way. Long names are taken like others. -/
def resolved (tree : FileTree) (path : FilePath) : Except ResolveFault FilePath :=
  match tree.resolve tree.nodes.length [] [] path with
  | .plain place => .ok place
  | .nullName => .error .nullName
  | .circular names =>
    let place := byName [] names
    match tree.destination place with
    | .loop => .error .loop
    | .nullName => .error .nullName
    | _ => .ok place

def open? (tree : FileTree) (path : FilePath) : Option FileNode :=
  match tree.destination path with
  | .found place => tree.node? place
  | _ => none

end FileTree
end SearchBar
