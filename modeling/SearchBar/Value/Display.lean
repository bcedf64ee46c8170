import SearchBar.Value.Basic
import SearchBar.Text.Quoted
import SearchBar.Text.Integer

/-! The text of a value.
A text stands for itself; inside arrays and tables texts are quoted, and dates, times and
moments are written by their parts. Numbers that are too long and values that are too deep
have no text. -/
namespace SearchBar.Value

open Decimal (Layout)

/-- Fifteen zeros at most are written before the point of a number and three behind it;
exponents have two digits. -/
def floatLayout : Layout :=
  { leastPoint := -3
    greatestPoint := 16
    exponentWidth := 2
    nan := "nan"
    infinity := "inf" }

def boolText (b : Bool) : String :=
  if b then "True" else "False"

def partsText (name : String) (parts : List Nat) (more : List String) : String :=
  name ++ Text.bracketed "(" ")" (parts.map toString ++ more)

def offsetText (minutes : Int) : String :=
  if minutes = 0 then "datetime.timezone.utc"
  else
    let days := Int.fdiv minutes 1440
    let seconds := Int.fmod minutes 1440 * 60
    let parts := (if days = 0 then [] else ["days=" ++ toString days]) ++
      (if seconds = 0 then [] else ["seconds=" ++ toString seconds])
    "datetime.timezone(datetime.timedelta" ++ Text.bracketed "(" ")" parts ++ ")"

def dateParts (d : Date) : List Nat :=
  [d.year, d.month, d.day]

def momentText (m : Moment) : String :=
  partsText "datetime.datetime" (dateParts m.date ++ m.time.parts)
    (m.offset.toList.map fun minutes => "tzinfo=" ++ offsetText minutes)

mutual

def inner : Value → String
  | null => "None"
  | bool b => boolText b
  | int n => toString n
  | float x => floatLayout.write x
  | text t => Text.quoted t.toList
  | date d => partsText "datetime.date" (dateParts d) []
  | time t => partsText "datetime.time" t.parts []
  | moment m => momentText m
  | array items => Text.bracketed "[" "]" (innerItems items)
  | table entries => Text.bracketed "\x7b" "\x7d" (innerEntries entries)

def innerItems : List Value → List String
  | [] => []
  | item :: rest => inner item :: innerItems rest

def innerEntries : List (String × Value) → List String
  | [] => []
  | (key, value) :: rest => (Text.quoted key.toList ++ ": " ++ inner value) :: innerEntries rest

end

def display : Value → String
  | text t => t
  | date d => d.text
  | time t => t.text
  | moment m => m.text
  | value => inner value

inductive DisplayFault where
  | longInteger
  | tooDeep
  deriving DecidableEq, Repr

/-- One call is made for each array and table around a value. -/
def mostLevels : Nat := mostCalls

mutual

def fault? (depth : Nat) : Value → Option DisplayFault
  | int n => if Text.isWritable n then none else some .longInteger
  | array items => if depth < mostLevels then itemsFault? (depth + 1) items else some .tooDeep
  | table entries =>
    if depth < mostLevels then entriesFault? (depth + 1) entries else some .tooDeep
  | _ => none

def itemsFault? (depth : Nat) : List Value → Option DisplayFault
  | [] => none
  | item :: rest =>
    match fault? depth item with
    | some fault => some fault
    | none => itemsFault? depth rest

def entriesFault? (depth : Nat) : List (String × Value) → Option DisplayFault
  | [] => none
  | (_, value) :: rest =>
    match fault? depth value with
    | some fault => some fault
    | none => entriesFault? depth rest

end

def shown (value : Value) : Except DisplayFault String :=
  match fault? 0 value with
  | some fault => .error fault
  | none => .ok value.display

def shownOrKind (value : Value) : String :=
  match value.shown with
  | .ok written => written
  | .error _ => "<unprintable " ++ value.kindName ++ " object>"

end SearchBar.Value
