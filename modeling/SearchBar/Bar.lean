import SearchBar.Completing
import SearchBar.Matching
import SearchBar.Catalog
import SearchBar.Plugin.Registry
import SearchBar.Journal.Sink
import SearchBar.Settings.Files

namespace SearchBar

structure Bar where
  catalog : Catalog

inductive BarFault where
  | catalog (fault : CatalogFault)
  | plugin (fault : PluginFault)
  | sink (fault : SinkFault)
  deriving DecidableEq, Repr

inductive PluginSource where
  | registered (registry : Registry)
  | entryPoints (entries : List EntryPoint)

namespace Bar

variable [PluginHost] [SinkHost]

def buildCatalog (sources : List (List Definition)) :
    Except CatalogFault Catalog × List Event :=
  match Catalog.ofSources sources with
  | .ok catalog => (.ok catalog, [.catalogBuilt catalog.size])
  | .error fault => (.error fault, [])

def ofDefinitions (definitions : List Definition) : Except CatalogFault Bar × List Event :=
  let (outcome, events) := buildCatalog [definitions]
  (outcome.map Bar.mk, events)

def registryOf (roster : Roster) : PluginSource → Transition Registry PluginFault Unit
  | .registered r => ⟨.ok (), r, []⟩
  | .entryPoints entries =>
    let found := Registry.empty.discover roster entries
    ⟨found.outcome.map fun _ => (), found.state, found.events⟩

def ofRegistry (roster : Roster) (registry : Registry) (settings : Settings) :
    Except BarFault Bar × List Event :=
  match registry.collect roster settings.disabled with
  | (.error fault, events) => (.error (.plugin fault), events)
  | (.ok supplied, collected) =>
    match buildCatalog [supplied, settings.filters] with
    | (.error fault, built) => (.error (.catalog fault), collected ++ built)
    | (.ok catalog, built) => (.ok ⟨catalog⟩, collected ++ built ++ [.barReady catalog.ids])

def setupLogging (opens : Target → Bool) (settings : Settings) (log : Logging) :
    Except SinkFault Unit × Logging :=
  if settings.enabled.holds then log.setup opens ⟨settings.level.name, false, true⟩
  else (.ok (), log)

/-- A bar from settings and plugins. Logging is set up before anything is noted. -/
def ofSettings (opens : Target → Bool) (roster : Roster) (source : PluginSource)
    (settings : Settings) (log : Logging) : Transition Logging BarFault Bar :=
  match setupLogging opens settings log with
  | (.error fault, log) => ⟨.error (.sink fault), log, []⟩
  | (.ok (), log) =>
    let found := registryOf roster source
    match found.outcome with
    | .error fault => ⟨.error (.plugin fault), log, found.events⟩
    | .ok () =>
      let (outcome, events) := ofRegistry roster found.state settings
      ⟨outcome, log, found.events ++ events⟩

/-- The filters of a submitted text. The match is noted before any filter is built. -/
def submit (definitions : List Definition) (text : Text) :
    Except FactoryFault (List Filter) × List Event :=
  let a := assign definitions text
  (a.filters, [.matched a.served.length text a.leftover])

def suggest (definitions : List Definition) (text : Text) :
    Except Part.LabelFault (List Suggestion) × List Event :=
  match SearchBar.suggest definitions text with
  | .ok suggestions => (.ok suggestions, [.suggested suggestions.length text])
  | .error fault => (.error fault, [])

/-- A suggestion applied to filters. One that finishes a filter is noted before the filter is
built. -/
def complete (filters : List Filter) (s : Suggestion) : Application × List Event :=
  let events := match filters with
    | .draft text :: _ =>
      if s.template || s.reach == .stage then []
      else [.finishing s.definition.id (s.complete text)]
    | _ => []
  (apply filters s, events)

end Bar
end SearchBar
