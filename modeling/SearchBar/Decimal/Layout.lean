import SearchBar.Decimal.Shortest

namespace SearchBar.Decimal

/-- Where positional notation ends and how exponents look. The point of a decimal stands
after `point` of its digits, counted from before the first. -/
structure Layout where
  leastPoint : Int
  greatestPoint : Int
  exponentWidth : Nat
  nan : String
  infinity : String

def padded (width n : Nat) : String :=
  let digits := Nat.toDigits 10 n
  String.ofList (List.replicate (width - digits.length) '0' ++ digits)

def positional (digits : List Char) (point : Int) : List Char :=
  if point ≤ 0 then '0' :: '.' :: (List.replicate (-point).toNat '0' ++ digits)
  else if point.toNat < digits.length then
    digits.take point.toNat ++ '.' :: digits.drop point.toNat
  else digits ++ List.replicate (point.toNat - digits.length) '0' ++ ['.', '0']

def Layout.exponential (layout : Layout) (digits : List Char) (point : Int) : String :=
  let power := point - 1
  let mantissa := match digits with
    | [] => []
    | [d] => [d]
    | d :: more => d :: '.' :: more
  String.ofList mantissa ++ (if power < 0 then "e-" else "e+") ++
    padded layout.exponentWidth power.natAbs

def Layout.magnitude (layout : Layout) (x : Scientific) : String :=
  let digits := Nat.toDigits 10 x.digits
  let point := digits.length + x.exponent
  if layout.leastPoint ≤ point && point ≤ layout.greatestPoint then
    String.ofList (positional digits point)
  else layout.exponential digits point

def Layout.write (layout : Layout) (x : Double) : String :=
  match x.meaning with
  | .nan => layout.nan
  | .infinite negative => (if negative then "-" else "") ++ layout.infinity
  | .finite negative m q => (if negative then "-" else "") ++ layout.magnitude (shortest m q)

end SearchBar.Decimal
