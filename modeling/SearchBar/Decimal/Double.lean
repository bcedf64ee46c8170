/-! Binary floating-point numbers of 64 bits, as their bits.
A number is sign, fraction `m` and exponent `q` and stands for `± m · 2^q`; everything is
computed on `m` and `q` in exact arithmetic. -/
namespace SearchBar

structure Double where
  bits : UInt64
  deriving DecidableEq, Repr, Inhabited

namespace Double

inductive Meaning where
  | nan
  | infinite (negative : Bool)
  /-- The number `m · 2^q`, with its sign. -/
  | finite (negative : Bool) (m : Nat) (q : Int)
  deriving DecidableEq, Repr

def fractionWidth : Nat := 52

def leadingBit : Nat := Nat.pow 2 fractionWidth

def signBit : Nat := Nat.pow 2 63

def leastExponent : Int := -1074

def greatestExponent : Int := 971

def meaning (x : Double) : Meaning :=
  let n := x.bits.toNat
  let negative : Bool := signBit ≤ n
  let field : Nat := n / leadingBit % Nat.pow 2 11
  let fraction : Nat := n % leadingBit
  if field = 2047 then
    if fraction = 0 then .infinite negative else .nan
  else if field = 0 then .finite negative fraction leastExponent
  else .finite negative (fraction + leadingBit) ((field : Int) - 1075)

def assemble (negative : Bool) (field fraction : Nat) : Double :=
  ⟨UInt64.ofNat ((if negative then signBit else 0) + field * leadingBit + fraction)⟩

def infinity (negative : Bool) : Double := assemble negative 2047 0

def nan : Double := assemble false 2047 (Nat.pow 2 51)

def zero (negative : Bool) : Double := assemble negative 0 0

/-- The quotient rounded to the nearest whole number, a half to the even neighbour. -/
def roundQuotient (num den : Nat) : Nat :=
  let low := num / den
  let rest := num % den
  if den < 2 * rest || (den == 2 * rest && low % 2 == 1) then low + 1 else low

def scaled (num den : Nat) (q : Int) : Nat × Nat :=
  if 0 ≤ q then (num, den * Nat.pow 2 q.toNat) else (num * Nat.pow 2 (-q).toNat, den)

/-- The exponent at which `num / den` has a fraction of full width, or the least one. -/
def fittingExponent (num den : Nat) : Int :=
  let guess : Int := (num.log2 : Int) - den.log2 - fractionWidth
  let (n, d) := scaled num den guess
  max leastExponent (if n / d < leadingBit then guess - 1 else guess)

def ofRatio (negative : Bool) (num den : Nat) : Double :=
  if num = 0 then zero negative
  else
    let q := fittingExponent num den
    let (n, d) := scaled num den q
    let m := roundQuotient n d
    let (m, q) := if m = 2 * leadingBit then (leadingBit, q + 1) else (m, q)
    if greatestExponent < q then infinity negative
    else if m < leadingBit then assemble negative 0 m
    else assemble negative (q + 1075).toNat (m - leadingBit)

/-- The floating-point number nearest to `digits · 10^exponent`.
Beyond `10^310` the answer is infinite and below `10^-330` it is zero, whatever the digits. -/
def ofDecimal (negative : Bool) (digits : Nat) (exponent : Int) : Double :=
  let size : Int := (Nat.toDigits 10 digits).length + exponent
  if digits = 0 || size < -330 then zero negative
  else if 310 < size then infinity negative
  else if 0 ≤ exponent then ofRatio negative (digits * Nat.pow 10 exponent.toNat) 1
  else ofRatio negative digits (Nat.pow 10 (-exponent).toNat)

def wholeNumber? (x : Double) : Option Int :=
  match x.meaning with
  | .finite negative m q =>
    let sign : Int := if negative then -1 else 1
    if 0 ≤ q then some (sign * (m * Nat.pow 2 q.toNat : Nat))
    else if m % Nat.pow 2 (-q).toNat = 0 then some (sign * (m / Nat.pow 2 (-q).toNat : Nat))
    else none
  | _ => none

def isFinite (x : Double) : Bool :=
  match x.meaning with
  | .finite .. => true
  | _ => false

def isZero (x : Double) : Bool :=
  match x.meaning with
  | .finite _ m _ => m == 0
  | _ => false

end Double
end SearchBar
