import SearchBar.Value.Display

namespace SearchBar.Validation

inductive Step where
  | field (name : String)
  | item (index : Nat)
  deriving DecidableEq, Repr

inductive Fault where
  | missing
  | notText
  | emptyText
  | notArray
  | noItems
  | notCallable
  | notTable
  | noKind
  | unknownKind (shown : String)
  | emptyOption
  | repeatedOption (options : List Text)
  | notInteger
  | unreadableInteger
  | hugeInteger
  | fractional
  | notFinite
  | belowOne
  deriving DecidableEq, Repr

def Fault.message : Fault → String
  | missing => "Field required"
  | notText => "Input should be a valid string"
  | emptyText => "String should have at least 1 character"
  | notArray => "Input should be a valid tuple"
  | noItems => "Tuple should have at least 1 item after validation, not 0"
  | notCallable => "Input should be callable"
  | notTable => "Input should be a valid dictionary or object to extract fields from"
  | noKind => "Unable to extract tag using discriminator 'kind'"
  | unknownKind shown =>
    "Input tag '" ++ shown ++ "' found using 'kind' does not match any of the expected tags: " ++
      "'literal', 'options', 'number', 'digits'"
  | emptyOption => "Value error, Options must be non-empty strings"
  | repeatedOption options => "Value error, Duplicate options in " ++ Text.quotedList options
  | notInteger => "Input should be a valid integer"
  | unreadableInteger =>
    "Input should be a valid integer, unable to parse string as an integer"
  | hugeInteger =>
    "Unable to parse input string as an integer, exceeded maximum size"
  | fractional => "Input should be a valid integer, got a number with a fractional part"
  | notFinite => "Input should be a finite number"
  | belowOne => "Input should be greater than or equal to 1"

structure Report where
  path : List Step
  fault : Fault
  deriving DecidableEq, Repr

def Step.text : Step → String
  | field name => name
  | item index => toString index

def Report.text (r : Report) : String :=
  ".".intercalate (r.path.map Step.text) ++ ": " ++ r.fault.message

def reportsText (reports : List Report) : String :=
  "\n".intercalate (reports.map Report.text)

abbrev Checked (α : Type) := Except (List Report) α

namespace Checked

variable {α β : Type}

def fail (fault : Fault) : Checked α :=
  .error [⟨[], fault⟩]

def under (step : Step) (checked : Checked α) : Checked α :=
  checked.mapError fun reports => reports.map fun r => { r with path := step :: r.path }

/-- Both values, or the reports of the first followed by those of the second. -/
def both (first : Checked α) (second : Checked β) : Checked (α × β) :=
  match first, second with
  | .ok a, .ok b => .ok (a, b)
  | .ok _, .error reports => .error reports
  | .error reports, .ok _ => .error reports
  | .error reports, .error more => .error (reports ++ more)

def reports : Checked α → List Report
  | .ok _ => []
  | .error rs => rs

end Checked

variable {α : Type}

def required (t : Table) (name : String) (read : Value → Checked α) : Checked α :=
  (match t.get? name with
  | none => Checked.fail .missing
  | some value => read value).under (.field name)

def optional (t : Table) (name : String) (absent : α) (read : Value → Checked α) : Checked α :=
  match t.get? name with
  | none => .ok absent
  | some value => (read value).under (.field name)

def anyText : Value → Checked String
  | .text t => .ok t
  | _ => .fail .notText

def textOrNull : Value → Checked (Option String)
  | .null => .ok none
  | value => (anyText value).map some

def someText (value : Value) : Checked { text : Text // text ≠ [] } :=
  match anyText value with
  | .error reports => .error reports
  | .ok t => if h : t.toList ≠ [] then .ok ⟨t.toList, h⟩ else .fail .emptyText

/-- The items of an array, each read by itself. There has to be one that passes. -/
def items (read : Value → Checked α) : Value → Checked { xs : List α // xs ≠ [] }
  | .array values =>
    let results := values.zipIdx.map fun (value, i) => (read value).under (.item i)
    let reports := results.flatMap Checked.reports
    let passed := results.filterMap Except.toOption
    if h : passed ≠ [] then
      if reports.isEmpty then .ok ⟨passed, h⟩ else .error reports
    else .error (reports ++ [⟨[], .noItems⟩])
  | _ => .fail .notArray

end SearchBar.Validation
