import SearchBar.Toml.Strings
import SearchBar.Value.Basic
import SearchBar.Text.Integer

namespace SearchBar.Toml

abbrev Form (α : Type) := Text → Option (α × Text)

def fixedDigits (width low high : Nat) : Form Nat := fun rest =>
  let digits := rest.take width
  let n := numeralIn 10 (digits.filterMap hexValue?)
  if digits.length == width && digits.all Char.isDigit && low ≤ n && n ≤ high then
    some (n, rest.drop width)
  else none

def character (c : Char) : Form Char
  | d :: rest => if d == c then some (c, rest) else none
  | [] => none

def orAbsent {α : Type} (absent : α) (form : Form α) (rest : Text) : α × Text :=
  (form rest).getD (absent, rest)

/-- Microseconds: at least one digit behind a point, of which the first six count. -/
def fractionForm : Form Nat := fun rest => do
  let (_, rest) ← character '.' rest
  let digits := rest.takeWhile Char.isDigit
  if digits.isEmpty then none
  else
    let kept := digits.take 6
    let n := numeralIn 10 (kept.filterMap hexValue?)
    some (n * Nat.pow 10 (6 - kept.length), rest.drop digits.length)

def secondsForm : Form (Nat × Nat) := fun rest => do
  let (_, rest) ← character ':' rest
  let (second, rest) ← fixedDigits 2 0 59 rest
  let (fraction, rest) := orAbsent 0 fractionForm rest
  return ((second, fraction), rest)

def timeForm : Form TimeOfDay := fun rest => do
  let (hour, rest) ← fixedDigits 2 0 23 rest
  let (_, rest) ← character ':' rest
  let (minute, rest) ← fixedDigits 2 0 59 rest
  let ((second, fraction), rest) := orAbsent (0, 0) secondsForm rest
  return (⟨hour, minute, second, fraction⟩, rest)

def offsetForm : Form Int
  | c :: rest =>
    if c == 'Z' || c == 'z' then some (0, rest)
    else if c == '+' || c == '-' then do
      let (hour, rest) ← fixedDigits 2 0 23 rest
      let (_, rest) ← character ':' rest
      let (minute, rest) ← fixedDigits 2 0 59 rest
      let minutes : Int := 60 * hour + minute
      return (if c == '-' then -minutes else minutes, rest)
    else none
  | [] => none

def clockForm : Form (TimeOfDay × Option Int) := fun rest => do
  let c ← rest.head?
  if c == 'T' || c == 't' || c == ' ' then
    let (time, rest) ← timeForm (rest.drop 1)
    let (offset, rest) := orAbsent none (fun r => (offsetForm r).map fun (n, m) => (some n, m)) rest
    return ((time, offset), rest)
  else none

/-- Year, month and day; whether the month has that day is not looked at. -/
def dateForm : Form (Nat × Nat × Nat) := fun rest => do
  let (year, rest) ← fixedDigits 4 0 9999 rest
  let (_, rest) ← character '-' rest
  let (month, rest) ← fixedDigits 2 1 12 rest
  let (_, rest) ← character '-' rest
  let (day, rest) ← fixedDigits 2 1 31 rest
  return ((year, month, day), rest)

/-- A date or a moment; the inner `none` is one that the calendar does not have. -/
def dateOrMomentForm : Form (Option Value) := fun rest => do
  let ((year, month, day), rest) ← dateForm rest
  let date := Date.ofParts? year month day
  let (clock, rest) := orAbsent none (fun r => (clockForm r).map fun (c, m) => (some c, m)) rest
  return (date.map fun d =>
    match clock with
    | none => .date d
    | some (time, offset) => .moment ⟨d, time, offset⟩, rest)

def moreDigits (value? : Char → Option Nat) : Text → List Nat × Text
  | [] => ([], [])
  | ['_'] => ([], ['_'])
  | '_' :: c :: rest =>
    match value? c with
    | some digit =>
      let (digits, after) := moreDigits value? rest
      (digit :: digits, after)
    | none => ([], '_' :: c :: rest)
  | c :: rest =>
    match value? c with
    | some digit =>
      let (digits, after) := moreDigits value? rest
      (digit :: digits, after)
    | none => ([], c :: rest)

def digitRun (value? : Char → Option Nat) : Form (List Nat)
  | c :: rest =>
    (value? c).map fun digit =>
      let (digits, after) := moreDigits value? rest
      (digit :: digits, after)
  | [] => none

def digitBelow (base : Nat) (c : Char) : Option Nat :=
  (hexValue? c).filter (· < base)

def basedForm : Form Nat
  | '0' :: mark :: rest =>
    let base? := if mark == 'x' then some 16 else if mark == 'b' then some 2
      else if mark == 'o' then some 8 else none
    base?.bind fun base =>
      (digitRun (digitBelow base) rest).map fun (digits, after) => (numeralIn base digits, after)
  | _ => none

def signForm : Text → Bool × Text
  | '+' :: rest => (false, rest)
  | '-' :: rest => (true, rest)
  | rest => (false, rest)

def wholeForm : Form (List Nat)
  | '0' :: rest => some ([0], rest)
  | rest => digitRun (digitBelow 10) rest

def pointForm : Form (List Nat) := fun rest => do
  let (_, rest) ← character '.' rest
  digitRun (digitBelow 10) rest

def exponentForm : Form Int := fun rest => do
  let c ← rest.head?
  if c == 'e' || c == 'E' then
    let (negative, rest) := signForm (rest.drop 1)
    let (digits, rest) ← digitRun (digitBelow 10) rest
    let n := Int.ofNat (numeralIn 10 digits)
    return (if negative then -n else n, rest)
  else none

def decimalForm : Form (Except Stop Value) := fun rest => do
  let (negative, rest) := signForm rest
  let (whole, rest) ← wholeForm rest
  let (fraction, rest) := orAbsent [] pointForm rest
  let (power, rest) := orAbsent none
    (fun r => (exponentForm r).map fun (n, m) => (some n, m)) rest
  if fraction.isEmpty && power.isNone then
    let n := Int.ofNat (numeralIn 10 whole)
    let value := if Text.longestInteger < whole.length then .error .longInteger
      else .ok (Value.int (if negative then -n else n))
    return (value, rest)
  else
    let digits := numeralIn 10 (whole ++ fraction)
    let exponent := power.getD 0 - fraction.length
    return (.ok (.float (Double.ofDecimal negative digits exponent)), rest)

def specialForm : Form Value := fun rest =>
  let (negative, body) := signForm rest
  if "inf".toList.isPrefixOf body then some (.float (Double.infinity negative), body.drop 3)
  else if "nan".toList.isPrefixOf body then some (.float Double.nan, body.drop 3)
  else none

def scalar : Reader Value := fun rest =>
  match dateOrMomentForm rest with
  | some (some value, more) => .ok (value, more)
  | some (none, _) => fail .badDate rest
  | none =>
    match timeForm rest with
    | some (time, more) => .ok (.time time, more)
    | none =>
      match basedForm rest with
      | some (n, more) => .ok (.int n, more)
      | none =>
        match decimalForm rest with
        | some (.ok value, more) => .ok (value, more)
        | some (.error stop, _) => .error stop
        | none =>
          match specialForm rest with
          | some (value, more) => .ok (value, more)
          | none => fail .badValue rest

end SearchBar.Toml
