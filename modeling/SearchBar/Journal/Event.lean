import SearchBar.Text.Quoted

namespace SearchBar

inductive Level where
  | trace
  | debug
  | info
  | success
  | warning
  | error
  | critical
  deriving DecidableEq, Repr

namespace Level

def all : List Level :=
  [trace, debug, info, success, warning, error, critical]

def name : Level → String
  | trace => "TRACE"
  | debug => "DEBUG"
  | info => "INFO"
  | success => "SUCCESS"
  | warning => "WARNING"
  | error => "ERROR"
  | critical => "CRITICAL"

def severity : Level → Nat
  | trace => 5
  | debug => 10
  | info => 20
  | success => 25
  | warning => 30
  | error => 40
  | critical => 50

def ofName? (name : String) : Option Level :=
  all.find? (·.name == name)

end Level

inductive Event where
  | matched (count : Nat) (text : Text) (leftover : List Text)
  | suggested (count : Nat) (text : Text)
  | finishing (id : String) (text : Text)
  | catalogBuilt (size : Nat)
  | registered (plugin : String)
  | pluginDisabled (plugin : String)
  | pluginSkipped (reason : String)
  | barReady (ids : List String)
  deriving DecidableEq, Repr

namespace Event

def level : Event → Level
  | pluginSkipped _ => .warning
  | _ => .debug

def message : Event → String
  | matched count text leftover =>
    "Matched " ++ toString count ++ " filter(s) from " ++ text.quoted ++ ", leftover " ++
      Text.quotedList leftover
  | suggested count text => toString count ++ " suggestion(s) for " ++ text.quoted
  | finishing id text => "Finishing filter '" ++ id ++ "' from " ++ text.quoted
  | catalogBuilt size => "Catalog built with " ++ toString size ++ " definition(s)"
  | registered plugin => "Registered plugin '" ++ plugin ++ "'"
  | pluginDisabled plugin => "Plugin '" ++ plugin ++ "' is disabled"
  | pluginSkipped reason => "Skipping plugin: " ++ reason
  | barReady ids =>
    let listed := ", ".intercalate ids
    "Filter bar ready with filters: " ++ (if listed.isEmpty then "none" else listed)

end Event
end SearchBar
