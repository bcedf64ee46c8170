import SearchBar.Value.Basic

namespace SearchBar

mutual

/-- What a key holds after `upper` is laid over what it held before. -/
def Value.overlay (lower : Option Value) : Value → Value
  | .table upper =>
    match lower with
    | some (.table below) => .table (Table.overlay below upper)
    | _ => .table upper
  | upper => upper

def Table.overlay (below : Table) : List (String × Value) → Table
  | [] => below
  | (key, value) :: rest =>
    Table.overlay (Table.put key (Value.overlay (Table.get? below key) value) below) rest

end

mutual

/-- How many tables meet one inside the other where a value is laid over what was there. -/
def Value.meetings (lower : Option Value) : Value → Nat
  | .table upper =>
    match lower with
    | some (.table below) => Table.meetings below upper
    | _ => 0
  | _ => 0

def Table.meetings (below : Table) : List (String × Value) → Nat
  | [] => 1
  | (key, value) :: rest =>
    max (Value.meetings (Table.get? below key) value + 1) (Table.meetings below rest)

end

namespace Table

/-- One call is made for each table that meets another. -/
def mostMeetings : Nat := mostCalls

inductive MergeFault where
  | tooDeep
  deriving DecidableEq, Repr

def merge (below upper : Table) : Except MergeFault Table :=
  if mostMeetings < meetings below upper then .error .tooDeep else .ok (overlay below upper)

end Table

end SearchBar
