import SearchBar.Validation.Basic
import SearchBar.Toml.Fault
import SearchBar.Journal.Event

namespace SearchBar

inductive FilterFault where
  | notTable (kind : String)
  | invalid (reports : List Validation.Report)
  deriving DecidableEq, Repr

def FilterFault.message : FilterFault → String
  | notTable kind => "'" ++ kind ++ "' object is not a mapping"
  | invalid reports => Validation.reportsText reports

inductive ConfigCause where
  | unknownLevel (shown : String)
  /-- The filter with that number, counted from 1. -/
  | invalidFilter (number : Nat) (fault : FilterFault)
  | unreadable (what : Toml.Located)
  deriving DecidableEq, Repr

namespace ConfigCause

def lead : ConfigCause → String
  | unknownLevel _ => ""
  | invalidFilter number _ => "Invalid filter #" ++ toString number ++ ": "
  | unreadable _ => ""

def detail : ConfigCause → String
  | unknownLevel shown =>
    "Unknown log level '" ++ shown ++ "'. Valid levels: " ++
      ", ".intercalate (Level.all.map Level.name)
  | invalidFilter _ fault => fault.message
  | unreadable what => what.message

end ConfigCause

/-- A message behind the file and the line that it is about, as far as they are known. -/
def located (line : Option Int) (path : Option String) (message : String) : String :=
  let file := match path with
    | none => []
    | some p => if p.isEmpty then [] else ["Error in " ++ p]
  let spot := line.toList.map fun n => "at line " ++ toString n
  let parts := file ++ spot
  if parts.isEmpty then message else " ".intercalate parts ++ ": " ++ message

structure ConfigFault where
  cause : ConfigCause
  line : Option Int
  path : Option String
  deriving DecidableEq, Repr

namespace ConfigFault

def messageWith (f : ConfigFault) (detail : String) : String :=
  located f.line f.path (f.cause.lead ++ detail)

def message (f : ConfigFault) : String :=
  f.messageWith f.cause.detail

end ConfigFault

inductive SettingsFault where
  | cause (cause : ConfigCause)
  | sectionNotTable
  | notListable
  | notShown (fault : Value.DisplayFault)
  deriving DecidableEq, Repr

end SearchBar
