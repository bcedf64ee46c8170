import SearchBar.Calendar

namespace SearchBar

/-- The runtime lets so many calls stand inside each other, besides those that lead to the first
of them. -/
def mostCalls : Nat := 990

inductive Value where
  | null
  | bool (value : Bool)
  | int (value : Int)
  | float (value : Double)
  | text (value : String)
  | date (value : Date)
  | time (value : TimeOfDay)
  | moment (value : Moment)
  | array (items : List Value)
  | table (entries : List (String × Value))
  deriving Inhabited

abbrev Table := List (String × Value)

namespace Table

def get? (t : Table) (key : String) : Option Value :=
  t.lookup key

/-- Gives a key a value; a key already there keeps its place. -/
def put (key : String) (value : Value) : Table → Table
  | [] => [(key, value)]
  | (k, v) :: rest => if k = key then (k, value) :: rest else (k, v) :: put key value rest

end Table

namespace Value

/-- The members of a value: the items of an array, the characters of a text, the keys of
a table. Other values have none to list. -/
def members? : Value → Option (List Value)
  | array items => some items
  | text t => some (t.toList.map fun c => text (String.ofList [c]))
  | table entries => some (entries.map fun entry => text entry.1)
  | _ => none

/-- Everything holds but `null`, `false`, zeros and what is empty. -/
def holds : Value → Bool
  | null => false
  | bool b => b
  | int n => n != 0
  | float x => !x.isZero
  | text t => !t.isEmpty
  | array items => !items.isEmpty
  | table entries => !entries.isEmpty
  | date _ | time _ | moment _ => true

def kindName : Value → String
  | null => "NoneType"
  | bool _ => "bool"
  | int _ => "int"
  | float _ => "float"
  | text _ => "str"
  | date _ => "datetime.date"
  | time _ => "datetime.time"
  | moment _ => "datetime.datetime"
  | array _ => "list"
  | table _ => "dict"

end Value
end SearchBar
