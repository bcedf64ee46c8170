import SearchBar.Plugin.Basic

namespace SearchBar

/-- The name of a plugin at the host; one with an empty name is known by itself. -/
inductive HostName where
  | named (name : String)
  | itself (who : PluginId)
  deriving DecidableEq, Repr

structure Host where
  names : List (HostName × PluginId)
  hooked : List PluginId
  deriving DecidableEq, Repr

inductive HostFault where
  | nameTaken
  | alreadyKnown
  | malformedHook
  | notKnown
  deriving DecidableEq, Repr

def HostFault.message : HostFault → String
  | nameTaken => "the name is taken"
  | alreadyKnown => "the plugin is known by another name"
  | malformedHook => "a hook has arguments that are not specified"
  | notKnown => "the plugin is not known"

namespace Host

def empty : Host := ⟨[], []⟩

def hostName (who : PluginId) (name : String) : HostName :=
  if name.isEmpty then .itself who else .named name

def knows (h : Host) (who : PluginId) : Bool :=
  h.names.any (·.2 == who)

/-- A used name and a known object are refused. The name is noted before the hook is looked
at, and stays where the hook is refused. -/
def register (h : Host) (who : PluginId) (name : String) (hook : Hook) :
    Except HostFault Unit × Host :=
  let key := hostName who name
  if h.names.any (·.1 == key) then (.error .nameTaken, h)
  else if h.knows who then (.error .alreadyKnown, h)
  else
    let noted := { h with names := h.names ++ [(key, who)] }
    match hook with
    | .malformed => (.error .malformedHook, noted)
    | .unmarked => (.ok (), noted)
    | .marked => (.ok (), { noted with hooked := noted.hooked ++ [who] })

def unregister (h : Host) (who : PluginId) : Except HostFault Host :=
  match h.names.find? (·.2 == who) with
  | none => .error .notKnown
  | some entry =>
    .ok ⟨h.names.filter (·.1 != entry.1), h.hooked.filter (· != who)⟩

end Host

/-- A host takes plugins in by a name and forgets them again. -/
class PluginHost where
  register : Host → PluginId → String → Hook → Except HostFault Unit × Host
  unregister : Host → PluginId → Except HostFault Host

instance : PluginHost := ⟨Host.register, Host.unregister⟩

end SearchBar
