import SearchBar.Decimal.Double

/-! The fewest decimal digits that read back as the same floating-point number.
The reals that round to `m · 2^q` form an interval, ends included iff `m` is even. Grids of
decimals are tried from coarse to fine; on the first that meets the interval the point
nearest to the number is taken, of two equally near the even one. -/
namespace SearchBar.Decimal

/-- The number `digits · 10^exponent`. -/
structure Scientific where
  digits : Nat
  exponent : Int
  deriving DecidableEq, Repr

/-- A number and its rounding interval, all over one denominator. -/
structure Interval where
  low : Nat
  middle : Nat
  high : Nat
  unit : Nat
  closed : Bool

/-- The interval of `m · 2^q`, counted in steps of `10^exponent`. -/
def interval (m : Nat) (q : Int) (exponent : Int) : Interval :=
  let shift := q - 2
  let factor := Nat.pow 2 shift.toNat * Nat.pow 10 (-exponent).toNat
  let below := if m = Double.leadingBit && Double.leastExponent < q then 1 else 2
  { low := (4 * m - below) * factor
    middle := 4 * m * factor
    high := (4 * m + 2) * factor
    unit := Nat.pow 2 (-shift).toNat * Nat.pow 10 exponent.toNat
    closed := m % 2 == 0 }

def Interval.contains (i : Interval) (n : Nat) : Bool :=
  let x := n * i.unit
  if i.closed then i.low ≤ x && x ≤ i.high else i.low < x && x < i.high

def Interval.pick? (i : Interval) : Option Nat :=
  let down := i.middle / i.unit
  let up := down + 1
  match i.contains down, i.contains up with
  | false, false => none
  | true, false => some down
  | false, true => some up
  | true, true =>
    let below := i.middle - down * i.unit
    let above := up * i.unit - i.middle
    if below < above || (below == above && down % 2 == 0) then some down else some up

def firstHit (m : Nat) (q : Int) : Nat → Int → Scientific
  | 0, exponent => ⟨0, exponent⟩
  | tries + 1, exponent =>
    match (interval m q exponent).pick? with
    | some digits => ⟨digits, exponent⟩
    | none => firstHit m q tries (exponent - 1)

def dropZeros : Nat → Scientific → Scientific
  | 0, x => x
  | tries + 1, x =>
    if x.digits != 0 && x.digits % 10 == 0 then dropZeros tries ⟨x.digits / 10, x.exponent + 1⟩
    else x

/-- The shortest decimal for `m · 2^q`. A grid no finer than the leading digit's comes
first, so that twenty grids reach seventeen digits and more. -/
def shortest (m : Nat) (q : Int) : Scientific :=
  if m = 0 then ⟨0, 0⟩
  else dropZeros 20 (firstHit m q 20 (Int.fdiv (((m.log2 : Int) + q) * 30103) 100000 + 1))

end SearchBar.Decimal
