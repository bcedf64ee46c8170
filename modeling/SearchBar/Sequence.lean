/-! Signed positions in a list.
A negative position counts from the end; a position outside the list is moved to the
nearer end where a range is taken, and has no item. -/
namespace SearchBar.Sequence

variable {α : Type}

def item? (xs : List α) (position : Int) : Option α :=
  let i := if position < 0 then position + xs.length else position
  if i < 0 then none else xs[i.toNat]?

def bound (length : Nat) (position : Int) : Nat :=
  if position < 0 then (position + length).toNat else min position.toNat length

def before (xs : List α) (stop : Int) : List α :=
  xs.take (bound xs.length stop)

def onward (xs : List α) (start : Int) : List α :=
  xs.drop (bound xs.length start)

def between (xs : List α) (start stop : Int) : List α :=
  (before xs stop).drop (bound xs.length start)

/-- A signed position moved into `-1 … length - 1`, for walks towards the front. -/
def boundBackward (length : Nat) (position : Int) : Int :=
  if position < 0 then max (position + length) (-1) else min position (length - 1 : Int)

/-- The positions a walk visits; `none` for steps of zero. -/
def walk (length : Nat) (start stop step : Option Int) : Option (List Nat) :=
  let stride := step.getD 1
  if stride = 0 then none
  else if 0 < stride then
    let first := bound length (start.getD 0)
    let last := bound length (stop.getD length)
    let count := (last - first + stride.toNat - 1) / stride.toNat
    some ((List.range count).map fun k => first + k * stride.toNat)
  else
    let first := match start with
      | none => (length : Int) - 1
      | some position => boundBackward length position
    let last := match stop with
      | none => -1
      | some position => boundBackward length position
    let count := ((first - last).toNat + (-stride).toNat - 1) / (-stride).toNat
    some ((List.range count).map fun k => (first + Int.ofNat k * stride).toNat)

def slice (xs : List α) (start stop step : Option Int) : Option (List α) :=
  (walk xs.length start stop step).map fun positions => positions.filterMap fun i => xs[i]?

end SearchBar.Sequence
