import SearchBar.Text.Digit

/-! Whole numbers written in a text.
White space around the number, one sign, digits of any script and single underscores
between digits are accepted; more than 4300 digits are not. -/
namespace SearchBar.Text

inductive IntegerFault where
  | malformed
  | tooLong
  deriving DecidableEq, Repr

def longestInteger : Nat := 4300

def isWritable (n : Int) : Bool :=
  n.natAbs < Nat.pow 10 longestInteger

/-- The values of digits among which single underscores may stand. -/
def digitValues? : Text → Option (List Nat)
  | [] => none
  | [c] => (digitValue? c).map fun digit => [digit]
  | c :: '_' :: rest => (digitValue? c).bind fun digit => (digitValues? rest).map (digit :: ·)
  | c :: d :: rest => (digitValue? c).bind fun digit => (digitValues? (d :: rest)).map (digit :: ·)

def readNatural (text : Text) : Except IntegerFault Nat :=
  match digitValues? text with
  | none => .error .malformed
  | some digits =>
    if digits.length ≤ longestInteger then .ok (numeral digits) else .error .tooLong

def readInteger (text : Text) : Except IntegerFault Int :=
  match text.trim with
  | '+' :: rest => (readNatural rest).map Int.ofNat
  | '-' :: rest => (readNatural rest).map fun n => -Int.ofNat n
  | rest => (readNatural rest).map Int.ofNat

end SearchBar.Text
