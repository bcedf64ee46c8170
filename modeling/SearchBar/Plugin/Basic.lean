import SearchBar.Definition.Basic
import SearchBar.Journal.Event

namespace SearchBar

inductive Hook where
  | marked
  | unmarked
  | malformed
  deriving DecidableEq, Repr

inductive Supply where
  | definitions (list : List Definition)
  | nothing
  | failure

/-- A plugin as it is at some moment; its name may change later. -/
structure Plugin where
  name : Option String
  version : String
  description : String
  hook : Hook
  supply : Supply

abbrev PluginId := Nat

abbrev Roster := PluginId → Plugin

def Roster.rename (roster : Roster) (who : PluginId) (name : String) : Roster :=
  fun i => if i = who then { roster i with name := some name } else roster i

def entryPointGroup : String := "filterbar.plugins"

/-- A plugin on offer: one that can be had, or the reason why it cannot. -/
structure EntryPoint where
  name : String
  group : String
  offer : Except String PluginId

end SearchBar
