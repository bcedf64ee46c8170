import SearchBar.FileTree.Basic

namespace SearchBar.FileTree

def set (tree : FileTree) (path : FilePath) (node : FileNode) : FileTree :=
  ⟨(path, node) :: tree.nodes.filter (·.1 != path)⟩

inductive MakeFault where
  | taken
  | directory
  | missing
  | notDirectory
  | loop
  | longName
  | nullName
  deriving DecidableEq, Repr

/-- Why no directory is made through a link that leads there. A link that leads nowhere is in the
way itself. -/
def linkFault (isLast : Bool) : Destination → MakeFault
  | .longName => .longName
  | .vacant _ | .missing | .nullName => .taken
  | .loop => if isLast then .taken else .loop
  | .found _ | .blocked => if isLast then .taken else .notDirectory

def makeAlong (tree : FileTree) (place : FilePath) :
    List String → Except MakeFault (FileTree × FilePath)
  | [] => .ok (tree, place)
  | ".." :: rest => makeAlong tree (FilePath.up place) rest
  | name :: rest =>
    let child := place ++ [name]
    if FilePath.longestName < name.utf8ByteSize then .error .longName
    else
      match tree.node? child with
      | none => makeAlong (tree.set child .directory) child rest
      | some .directory => makeAlong tree child rest
      | some (.file _) => .error (if rest.isEmpty then .taken else .notDirectory)
      | some (.link _) =>
        let destination := tree.follow mostLinks place [name]
        match destination with
        | .found target =>
          match tree.node? target with
          | some .directory => makeAlong tree target rest
          | _ => .error (linkFault rest.isEmpty destination)
        | _ => .error (linkFault rest.isEmpty destination)

def withDirectory (tree : FileTree) (path : FilePath) :
    Except MakeFault (FileTree × FilePath) :=
  if path.any FilePath.isNullName then .error .nullName
  else if path.isLong then .error .longName
  else tree.makeAlong [] path

/-- The tree with a file at a path, and the directories that lead there. Links are followed to
the end, and the file is made where they lead, in a directory that is there. -/
def withFile (tree : FileTree) (path : FilePath) (content : ByteArray) :
    Except MakeFault FileTree := do
  let (tree, _) ← tree.withDirectory path.dropLast
  match tree.destination path with
  | .vacant place => return tree.set place (.file content)
  | .found place =>
    match tree.node? place with
    | some .directory => .error .directory
    | _ => return tree.set place (.file content)
  | .missing => .error .missing
  | .blocked => .error .notDirectory
  | .loop => .error .loop
  | .longName => .error .longName
  | .nullName => .error .nullName

def withLink (tree : FileTree) (path target : FilePath) : Except MakeFault FileTree := do
  let (tree, parent) ← tree.withDirectory path.dropLast
  if path.any FilePath.isNullName || target.any FilePath.isNullName then .error .nullName
  else if path.isLong || target.isLong then .error .longName
  else
    match path.getLast? with
    | none | some ".." => .error .taken
    | some name =>
      if FilePath.longestName < name.utf8ByteSize then .error .longName
      else if (tree.node? (parent ++ [name])).isSome then .error .taken
      else return tree.set (parent ++ [name]) (.link target)

end SearchBar.FileTree
