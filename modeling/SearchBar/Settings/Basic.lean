import SearchBar.Settings.Fault
import SearchBar.Validation.Definition
import SearchBar.Text.Upper

namespace SearchBar

structure Settings where
  enabled : Value
  level : Level
  disabled : List Value
  filters : List Definition

namespace Settings

def standard : Settings :=
  ⟨.bool false, .info, [], []⟩

def readSection (t : Table) (name : String) : Except SettingsFault Table :=
  match t.get? name with
  | none => .ok []
  | some (.table inner) => .ok inner
  | some _ => .error .sectionNotTable

def readLevel (logging : Table) : Except SettingsFault Level :=
  match logging.get? "level" with
  | none => .ok .info
  | some value =>
    match value.shown with
    | .error fault => .error (.notShown fault)
    | .ok text =>
      let shown := String.ofList (Text.upper text.toList)
      match Level.ofName? shown with
      | some level => .ok level
      | none => .error (.cause (.unknownLevel shown))

def readMembers (t : Table) (name : String) : Except SettingsFault (List Value) :=
  match t.get? name with
  | none => .ok []
  | some value =>
    match value.members? with
    | some members => .ok members
    | none => .error .notListable

/-- An entry with the source "config", unless it names its own. -/
def withSource (entry : Table) : Table :=
  if (entry.get? "source").isSome then entry else ("source", .text "config") :: entry

variable [DefinitionReader]

def readFilter (tag : Nat) : Value → Except FilterFault Definition
  | .table entry =>
    match DefinitionReader.read tag (withSource entry) with
    | .ok d => .ok d
    | .error reports => .error (.invalid reports)
  | value => .error (.notTable value.kindName)

/-- The filters from one with a number on, their tags counted up. -/
def readFilters (tag number : Nat) : List Value → Except SettingsFault (List Definition)
  | [] => .ok []
  | entry :: rest =>
    match readFilter tag entry with
    | .error fault => .error (.cause (.invalidFilter number fault))
    | .ok d => (readFilters (tag + 1) (number + 1) rest).map (d :: ·)

/-- The settings of a table. The definitions in it get tags from the given one on. -/
def read (tag : Nat) (t : Table) : Except SettingsFault Settings := do
  let logging ← readSection t "logging"
  let level ← readLevel logging
  let plugins ← readSection t "plugins"
  let disabled ← readMembers plugins "disabled"
  let entries ← readMembers t "filters"
  let filters ← readFilters tag 1 entries
  return ⟨(logging.get? "enabled").getD (.bool false), level, disabled, filters⟩

end Settings
end SearchBar
