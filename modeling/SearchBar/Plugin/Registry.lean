import SearchBar.Plugin.Host

namespace SearchBar

/-- The outcome of an operation, the state after it, and what it noted. -/
structure Transition (σ ε α : Type) where
  outcome : Except ε α
  state : σ
  events : List Event

inductive PluginFault where
  | taken (name : String)
  | refused (name : String) (reason : HostFault)
  | notLoaded (entry : String) (reason : String)
  | nameless
  | unknownToHost
  | supplyFailed
  /-- The names to leave out hold an array or a table. -/
  | badDisabled
  deriving DecidableEq, Repr

namespace PluginFault

def message : PluginFault → String
  | taken name => "Plugin '" ++ name ++ "' is already registered"
  | refused name reason => "Plugin '" ++ name ++ "' has invalid hooks: " ++ reason.message
  | notLoaded entry reason =>
    "Failed to load plugin entry point '" ++ entry ++ "': " ++ reason
  | nameless => "the plugin has no name"
  | unknownToHost => "the plugin is not registered"
  | supplyFailed => "the plugin failed"
  | badDisabled => "an array or a table is no name"

def isSkipped : PluginFault → Bool
  | taken _ | refused _ _ | notLoaded _ _ => true
  | _ => false

end PluginFault

structure Registry where
  listed : List (String × PluginId)
  host : Host
  deriving DecidableEq, Repr

structure PluginInfo where
  name : Option String
  version : String
  description : String
  deriving DecidableEq, Repr

namespace Registry

variable [PluginHost]

def empty : Registry := ⟨[], .empty⟩

def names (r : Registry) : List String :=
  r.listed.map (·.1)

def get? (r : Registry) (name : String) : Option PluginId :=
  r.listed.lookup name

def info? (r : Registry) (roster : Roster) (name : String) : Option PluginInfo :=
  (r.get? name).map fun who => ⟨(roster who).name, (roster who).version, (roster who).description⟩

/-- The host after it refused a plugin: one that it knows, under whatever name, goes. -/
def afterRefusal (host : Host) (who : PluginId) : Host :=
  match PluginHost.unregister host who with
  | .ok host => host
  | .error _ => host

def register (roster : Roster) (who : PluginId) (r : Registry) :
    Transition Registry PluginFault Unit :=
  match (roster who).name with
  | none => ⟨.error .nameless, r, []⟩
  | some name =>
    if (r.get? name).isSome then ⟨.error (.taken name), r, []⟩
    else
      match PluginHost.register r.host who name (roster who).hook with
      | (.error reason, host) =>
        ⟨.error (.refused name reason), { r with host := afterRefusal host who }, []⟩
      | (.ok (), host) =>
        ⟨.ok (), ⟨r.listed ++ [(name, who)], host⟩, [.registered name]⟩

def registerAll (roster : Roster) (r : Registry) :
    List PluginId → Transition Registry PluginFault Unit
  | [] => ⟨.ok (), r, []⟩
  | who :: rest =>
    let first := r.register roster who
    match first.outcome with
    | .error fault => ⟨.error fault, first.state, first.events⟩
    | .ok () =>
      let others := first.state.registerAll roster rest
      ⟨others.outcome, others.state, first.events ++ others.events⟩

/-- Takes a plugin off the list and then off the host's. Names that are not listed are let
pass. -/
def unregister (name : String) (r : Registry) : Transition Registry PluginFault Unit :=
  match r.get? name with
  | none => ⟨.ok (), r, []⟩
  | some who =>
    let listed := r.listed.filter (·.1 != name)
    match PluginHost.unregister r.host who with
    | .error _ => ⟨.error .unknownToHost, { r with listed }, []⟩
    | .ok host => ⟨.ok (), ⟨listed, host⟩, []⟩

def enrol (roster : Roster) (entry : EntryPoint) (r : Registry) :
    Transition Registry PluginFault Unit :=
  match entry.offer with
  | .error reason => ⟨.error (.notLoaded entry.name reason), r, []⟩
  | .ok who => r.register roster who

def offeredName (roster : Roster) (entry : EntryPoint) : String :=
  match entry.offer with
  | .error _ => ""
  | .ok who => (roster who).name.getD ""

def enrolAll (roster : Roster) :
    List EntryPoint → Registry → Transition Registry PluginFault (List String)
  | [], r => ⟨.ok [], r, []⟩
  | entry :: rest, r =>
    let first := r.enrol roster entry
    match first.outcome with
    | .ok () =>
      let others := enrolAll roster rest first.state
      ⟨others.outcome.map (offeredName roster entry :: ·), others.state,
        first.events ++ others.events⟩
    | .error fault =>
      if fault.isSkipped then
        let others := enrolAll roster rest first.state
        ⟨others.outcome, others.state,
          first.events ++ .pluginSkipped fault.message :: others.events⟩
      else ⟨.error fault, first.state, first.events⟩

def discover (roster : Roster) (entries : List EntryPoint) (r : Registry) :
    Transition Registry PluginFault (List String) :=
  r.enrolAll roster (entries.filter (·.group == entryPointGroup))

def disabledNames (disabled : List Value) : Option (List String) :=
  if disabled.all fun
    | .array _ | .table _ => false
    | _ => true
  then some (disabled.filterMap fun
    | .text name => some name
    | _ => none)
  else none

def collectFrom (roster : Roster) (disabled : List String) :
    List (String × PluginId) → Except PluginFault (List Definition) × List Event
  | [] => (.ok [], [])
  | (name, who) :: rest =>
    if disabled.contains name then
      let (outcome, events) := collectFrom roster disabled rest
      (outcome, .pluginDisabled name :: events)
    else
      match (roster who).supply with
      | .failure => (.error .supplyFailed, [])
      | .nothing => collectFrom roster disabled rest
      | .definitions own =>
        let (outcome, events) := collectFrom roster disabled rest
        (outcome.map (own ++ ·), events)

def collect (r : Registry) (roster : Roster) (disabled : List Value) :
    Except PluginFault (List Definition) × List Event :=
  match disabledNames disabled with
  | none => (.error .badDisabled, [])
  | some names => collectFrom roster names r.listed

def callFrom (roster : Roster) : List PluginId → Except PluginFault (List (List Definition))
  | [] => .ok []
  | who :: rest =>
    match (roster who).supply with
    | .failure => .error .supplyFailed
    | .nothing => callFrom roster rest
    | .definitions own => (callFrom roster rest).map (own :: ·)

/-- The host calls its hooks from the last that came to the first. -/
def callHooks (r : Registry) (roster : Roster) : Except PluginFault (List (List Definition)) :=
  callFrom roster r.host.hooked.reverse

end Registry
end SearchBar
