import SearchBar.Validation.Basic
import SearchBar.Text.Integer

/-! Whole numbers among values.
Whole floating-point numbers, truth values and texts are accepted for numbers. A text may
have white space around it, a sign, zeros in front, single underscores between digits and
nothing but zeros behind a point. -/
namespace SearchBar.Validation

open Text (IntegerFault)

/-- Digits and nothing else, without zeros in front. A run of more than 4300 digits is too
long, whatever stands behind it. -/
def plainNatural (text : Text) : Except IntegerFault Nat :=
  let digits := text.takeWhile Char.isDigit
  if text == ['0'] then .ok 0
  else if digits.isEmpty || digits.head? == some '0' then .error .malformed
  else if Text.longestInteger < digits.length then .error .tooLong
  else if digits.length < text.length then .error .malformed
  else .ok (Text.numeral (digits.map fun c => c.toNat - '0'.toNat))

def plainInteger : Text → Except IntegerFault Int
  | '-' :: rest => (plainNatural rest).map fun n => -Int.ofNat n
  | rest => (plainNatural rest).map Int.ofNat

/-- Behind a leading zero: the zeros and underscores are dropped up to the first other digit
or a minus sign, or up to the last character before a point or the end. -/
def dropLeadingZeros (last : Char) : Text → Option Text
  | [] => some [last]
  | c :: rest =>
    if c == '0' || c == '_' then dropLeadingZeros c rest
    else if c.isDigit || c == '-' then some (c :: rest)
    else if c == '.' then some (last :: c :: rest)
    else none

def fromFirstDigit : Text → Option Text
  | [] => none
  | c :: rest =>
    if c == '0' then dropLeadingZeros c rest
    else if c.isDigit || c == '-' then some (c :: rest)
    else none

def dropZeroFraction (text : Text) : Text :=
  match text.dropWhile (· != '.') with
  | _ :: fraction =>
    if !fraction.isEmpty && fraction.all (· == '0') then text.takeWhile (· != '.') else text
  | [] => text

def hasDoubleUnderscore : Text → Bool
  | '_' :: '_' :: _ => true
  | _ :: rest => hasDoubleUnderscore rest
  | [] => false

def dropUnderscores (text : Text) : Text :=
  if text.head? == some '_' || text.getLast? == some '_' || hasDoubleUnderscore text then text
  else text.filter (· != '_')

def plainMagnitude? (text : Text) : Option Text :=
  (fromFirstDigit text).map fun digits => dropUnderscores (dropZeroFraction digits)

/-- The text without its ornaments. One plus sign is dropped, a minus sign stays. -/
def unadorned? (text : Text) : Option Text :=
  match text.trim with
  | '+' :: rest => if rest.head? == some '-' then none else plainMagnitude? rest
  | '-' :: rest => (plainMagnitude? rest).map ('-' :: ·)
  | rest => plainMagnitude? rest

/-- A text is read as it stands, and without its ornaments if that fails. Only one that is
too long as it stands counts as too long. -/
def integerOfText (text : Text) : Checked Int :=
  match plainInteger text with
  | .ok n => .ok n
  | .error .tooLong => .fail .hugeInteger
  | .error .malformed =>
    match (unadorned? text).map plainInteger with
    | some (.ok n) => .ok n
    | _ => .fail .unreadableInteger

def integerOfFloat (x : Double) : Checked Int :=
  if !x.isFinite then .fail .notFinite
  else
    match x.wholeNumber? with
    | none => .fail .fractional
    | some n => if n.natAbs < Nat.pow 2 63 then .ok n else .fail .hugeInteger

def integer : Value → Checked Int
  | .int n => .ok n
  | .bool b => .ok (if b then 1 else 0)
  | .float x => integerOfFloat x
  | .text t => integerOfText t.toList
  | _ => .fail .notInteger

def positive (value : Value) : Checked { n : Nat // 0 < n } :=
  match integer value with
  | .error reports => .error reports
  | .ok n => if h : 0 < n.toNat then .ok ⟨n.toNat, h⟩ else .fail .belowOne

end SearchBar.Validation
