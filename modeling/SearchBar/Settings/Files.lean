import SearchBar.Settings.Basic
import SearchBar.Value.Overlay
import SearchBar.Toml.Document
import SearchBar.Text.LineNumber
import SearchBar.FileTree.Basic

namespace SearchBar

inductive LoadFault where
  | config (fault : ConfigFault)
  | missingFile (path : String)
  | directory
  | notUtf8
  | sectionNotTable
  | notListable
  | longInteger
  | tooDeep
  | linkLoop
  | longName
  | nullName
  deriving DecidableEq, Repr

structure Surroundings where
  tree : FileTree
  root : String
  home : FilePath
  current : FilePath

namespace Surroundings

def pathText (s : Surroundings) (path : FilePath) : String :=
  path.text s.root

/-- There is something at a path. Nothing is where a link leads nowhere, nor where a name has
a null character. -/
def holds (s : Surroundings) (path : FilePath) : Except LoadFault Bool :=
  match s.tree.destination path with
  | .found _ => .ok true
  | .longName => .error .longName
  | .vacant _ | .missing | .blocked | .loop | .nullName => .ok false

def withNewlines : Text → Text
  | '\r' :: '\n' :: rest => '\n' :: withNewlines rest
  | c :: rest => (if c == '\r' then '\n' else c) :: withNewlines rest
  | [] => []

def readText (s : Surroundings) (path : FilePath) : Except LoadFault Text :=
  match s.tree.open? path with
  | none | some (.link _) => .error (.missingFile (s.pathText path))
  | some .directory => .error .directory
  | some (.file content) =>
    match String.fromUTF8? content with
    | none => .error .notUtf8
    | some text => .ok (withNewlines text.toList)

/-- A fault of a document in a file; the line is the one that its message names. -/
def unreadable (path : String) : Toml.Unreadable → LoadFault
  | .longInteger => .longInteger
  | .tooDeep => .tooDeep
  | .invalid what =>
    match Text.lineNumber? what.message.toList with
    | .error _ => .longInteger
    | .ok line => .config ⟨.unreadable what, line, some path⟩

variable [DocumentReader] [DefinitionReader]

def readTable (s : Surroundings) (path : FilePath) : Except LoadFault Table := do
  let text ← s.readText path
  (DocumentReader.read text).mapError (unreadable (s.pathText path))

def settingsOf (tag : Nat) (path : Option String) (t : Table) : Except LoadFault Settings :=
  (Settings.read tag t).mapError fun
    | .cause cause => .config ⟨cause, none, path⟩
    | .sectionNotTable => .sectionNotTable
    | .notListable => .notListable
    | .notShown .longInteger => .longInteger
    | .notShown .tooDeep => .tooDeep

def load (s : Surroundings) (tag : Nat) : Option FilePath → Except LoadFault Settings
  | none => .ok .standard
  | some path => do
    if ← s.holds path then
      let t ← s.readTable path
      settingsOf tag (some (s.pathText path)) t
    else .error (.missingFile (s.pathText path))

def userFile (s : Surroundings) : FilePath :=
  s.home ++ [".config", "filterbar", "config.toml"]

def localName : String := "filterbar.toml"

/-- The directory to look in: the given one without links, or the working directory. -/
def startPath (s : Surroundings) : Option FilePath → Except LoadFault FilePath
  | none => .ok s.current
  | some start =>
    (s.tree.resolved start).mapError fun
      | .loop => .linkLoop
      | .nullName => .nullName

/-- The files there are, the user's first. A file that both ways lead to counts once. -/
def discover (s : Surroundings) (start : Option FilePath) : Except LoadFault (List FilePath) := do
  let directory ← s.startPath start
  let file := directory ++ [localName]
  let user := if (← s.holds s.userFile) then [s.userFile] else []
  let plain (path : FilePath) := (s.tree.resolved path).toOption
  if (← s.holds file) && !(user.map plain).contains (plain file) then return user ++ [file]
  else return user

def readMerged (s : Surroundings) (below : Table) : List FilePath → Except LoadFault Table
  | [] => .ok below
  | path :: rest => do
    let t ← s.readTable path
    let merged ← (Table.merge below t).mapError fun _ => .tooDeep
    s.readMerged merged rest

/-- The settings of all files. A fault names the file if there is one only. -/
def loadMerged (s : Surroundings) (tag : Nat) (start : Option FilePath) :
    Except LoadFault Settings := do
  let paths ← s.discover start
  let t ← s.readMerged [] paths
  let path := match paths with
    | [only] => some (s.pathText only)
    | _ => none
  settingsOf tag path t

end Surroundings
end SearchBar
