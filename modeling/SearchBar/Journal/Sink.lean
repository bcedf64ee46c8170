import SearchBar.Journal.Event

/-! Sinks: where events are written.
The sinks in use belong to the host, which numbers them; the package remembers the numbers
of those that it added, and replaces them when it is set up again. -/
namespace SearchBar

inductive Target where
  | console
  | file
  deriving DecidableEq, Repr

structure Sink where
  number : Nat
  target : Target
  threshold : Level
  deriving DecidableEq, Repr

structure Sinks where
  live : List Sink
  given : List Nat
  deriving DecidableEq, Repr

inductive Resource where
  | target (target : Target)
  | sink (number : Nat)
  deriving DecidableEq, Repr

inductive SinkFault where
  | unknownLevel (name : String)
  | unavailable (resource : Resource)
  deriving DecidableEq, Repr

namespace Sinks

def including (sinks : Sinks) (sink : Sink) : Sinks :=
  ⟨sinks.live ++ [sink], sinks.given ++ [sink.number]⟩

def without (sinks : Sinks) (number : Nat) : Sinks :=
  { sinks with live := sinks.live.filter (·.number != number) }

def next (sinks : Sinks) : Nat :=
  sinks.given.foldr (fun number above => max (number + 1) above) 0

def add (opens : Target → Bool) (level : String) (target : Target) (sinks : Sinks) :
    Except SinkFault (Nat × Sinks) :=
  if !opens target then .error (.unavailable (.target target))
  else
    match Level.ofName? level with
    | none => .error (.unknownLevel level)
    | some threshold => .ok (sinks.next, sinks.including ⟨sinks.next, target, threshold⟩)

def remove (number : Nat) (sinks : Sinks) : Except SinkFault Sinks :=
  if sinks.live.any (·.number == number) then .ok (sinks.without number)
  else .error (.unavailable (.sink number))

end Sinks

/-- A host adds sinks, for which it gives out numbers, and removes them by these. -/
class SinkHost where
  add : (Target → Bool) → String → Target → Sinks → Except SinkFault (Nat × Sinks)
  remove : Nat → Sinks → Except SinkFault Sinks

instance : SinkHost := ⟨Sinks.add, Sinks.remove⟩

structure Logging extends Sinks where
  enabled : Bool
  /-- The numbers of the sinks that the package added. -/
  recorded : List Nat
  deriving DecidableEq, Repr

structure LogRequest where
  level : String
  file : Bool
  console : Bool
  deriving DecidableEq, Repr

namespace Logging

def start : Logging :=
  ⟨⟨[], []⟩, false, []⟩

section Host

variable [SinkHost]

/-- Each number is forgotten before its sink is removed. The first sink that cannot be removed
ends it. -/
def drainFrom : List Nat → Logging → Except SinkFault Unit × Logging
  | [], log => (.ok (), { log with recorded := [] })
  | number :: earlier, log =>
    match SinkHost.remove number log.toSinks with
    | .error fault => (.error fault, { log with recorded := earlier.reverse })
    | .ok sinks => drainFrom earlier { log with toSinks := sinks }

def drain (log : Logging) : Except SinkFault Unit × Logging :=
  log.drainFrom log.recorded.reverse

def addSink (opens : Target → Bool) (level : String) (target : Target) (log : Logging) :
    Except SinkFault Logging :=
  match SinkHost.add opens level target log.toSinks with
  | .error fault => .error fault
  | .ok (number, sinks) => .ok { log with toSinks := sinks, recorded := log.recorded ++ [number] }

def addSinks (opens : Target → Bool) (level : String) :
    List Target → Logging → Except SinkFault Unit × Logging
  | [], log => (.ok (), log)
  | target :: rest, log =>
    match log.addSink opens level target with
    | .error fault => (.error fault, log)
    | .ok log => addSinks opens level rest log

end Host

def LogRequest.targets (request : LogRequest) : List Target :=
  (if request.console then [.console] else []) ++ (if request.file then [.file] else [])

/-- Replaces the package's sinks and lets its events through, unless a sink is refused. -/
def setup [SinkHost] (opens : Target → Bool) (request : LogRequest) (log : Logging) :
    Except SinkFault Unit × Logging :=
  match log.drain with
  | (.error fault, log) => (.error fault, log)
  | (.ok (), log) =>
    match log.addSinks opens request.level (LogRequest.targets request) with
    | (.ok (), log) => (.ok (), { log with enabled := true })
    | (.error fault, log) => (.error fault, log)

def withdraw [SinkHost] (log : Logging) : Except SinkFault Unit × Logging :=
  match log.drain with
  | (.error fault, log) => (.error fault, log)
  | (.ok (), log) => (.ok (), { log with enabled := false })

def disable [SinkHost] (log : Logging) : Logging :=
  log.withdraw.2

/-- An event of somebody else. No sink writes it, but where there is one its level has to be
known. -/
def foreign (log : Logging) (level : String) : Except SinkFault Unit :=
  if log.live.isEmpty || (Level.ofName? level).isSome then .ok ()
  else .error (.unknownLevel level)

def receivers (log : Logging) (event : Event) : List Sink :=
  if log.enabled then log.live.filter fun sink => sink.threshold.severity ≤ event.level.severity
  else []

def written (log : Logging) (target : Target) (events : List Event) : List Event :=
  events.flatMap fun event =>
    ((log.receivers event).filter (·.target == target)).map fun _ => event

end Logging

def Event.line (event : Event) : String :=
  let name := event.level.name
  name ++ String.ofList (List.replicate (8 - name.length) ' ') ++ "|" ++ event.message

end SearchBar
