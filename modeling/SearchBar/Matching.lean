import SearchBar.Allocation
import SearchBar.Definition.Basic

namespace SearchBar

structure Assignment where
  places : List (Definition × Option Text)
  leftover : List Text

namespace Assignment

def served (a : Assignment) : List (Definition × Text) :=
  a.places.filterMap fun (d, word) => word.map fun w => (d, w)

def buildAll : List (Definition × Text) → Except FactoryFault (List Filter)
  | [] => .ok []
  | (d, word) :: rest => do
    let filter ← d.build word
    let others ← buildAll rest
    return filter :: others

def filters (a : Assignment) : Except FactoryFault (List Filter) :=
  (buildAll a.served).map fun built => .draft (Text.unwords a.leftover) :: built

end Assignment

def assign (definitions : List Definition) (text : Text) : Assignment :=
  let (places, leftover) := Allocation.allocate Definition.accepts definitions text.words
  ⟨places, leftover⟩

def matchText (definitions : List Definition) (text : Text) :
    Except FactoryFault (List Filter) :=
  (assign definitions text).filters

end SearchBar
