import SearchBar.Text.Integer
import SearchBar.Text.Quoted

namespace SearchBar

inductive Part where
  | literal (text : Text)
  | options (choices : List Text)
  | number (name : Text)
  | digits (count : Nat) (name : Text)
  deriving DecidableEq, Repr

inductive Capture where
  | text (value : Text)
  | number (value : Int)
  deriving DecidableEq, Repr

inductive Offer where
  | values (texts : List Text)
  | placeholder (label : Text)
  deriving DecidableEq, Repr

namespace Part

def Valid : Part → Prop
  | literal text => text ≠ []
  | options choices => choices ≠ [] ∧ (∀ choice ∈ choices, choice ≠ []) ∧ choices.Nodup
  | number name => name ≠ []
  | digits count name => 0 < count ∧ name ≠ []

instance : DecidablePred Valid
  | literal text => inferInstanceAs (Decidable (text ≠ []))
  | options choices =>
    inferInstanceAs (Decidable (choices ≠ [] ∧ (∀ choice ∈ choices, choice ≠ []) ∧ choices.Nodup))
  | number name => inferInstanceAs (Decidable (name ≠ []))
  | digits count name => inferInstanceAs (Decidable (0 < count ∧ name ≠ []))

def isNumeral (text : Text) : Bool :=
  !text.isEmpty && text.all Char.isDigit

/-- The values of a part, said without reading any text. -/
def Allows : Part → Text → Prop
  | literal text, value => value = text
  | options choices, value => value ∈ choices
  | number _, value => isNumeral value
  | digits count _, value => value.length = count ∧ value.all Char.isDigit

instance : (part : Part) → (value : Text) → Decidable (part.Allows value)
  | literal text, value => inferInstanceAs (Decidable (value = text))
  | options choices, value => inferInstanceAs (Decidable (value ∈ choices))
  | number _, value => inferInstanceAs (Decidable (isNumeral value = true))
  | digits count _, value =>
    inferInstanceAs (Decidable (value.length = count ∧ value.all Char.isDigit = true))

/-- The length of the value that the rest begins with. Where several options fit, the
longest is taken. -/
def consume? : Part → Text → Option Nat
  | literal text, rest => if text.isPrefixOf rest then some text.length else none
  | options choices, rest => ((choices.filter (·.isPrefixOf rest)).map List.length).max?
  | number _, rest =>
    match (rest.takeWhile Char.isDigit).length with
    | 0 => none
    | n + 1 => some (n + 1)
  | digits count _, rest =>
    let candidate := rest.take count
    if candidate.length == count && isNumeral candidate then some count else none

/-- The rest is not empty and breaks off inside a value. A run of digits never does: it is
a number already. -/
def isBegun : Part → Text → Bool
  | literal text, rest =>
    !rest.isEmpty && rest.length < text.length && rest.isPrefixOf text
  | options choices, rest =>
    !rest.isEmpty && choices.any fun choice =>
      rest.length < choice.length && rest.isPrefixOf choice
  | number _, _ => false
  | digits count _, rest => rest.length < count && isNumeral rest

def placeholder? : Part → Option Text
  | literal _ | options _ => none
  | number name => some ('\x7b' :: name ++ ['\x7d'])
  | digits count name =>
    some ('\x7b' :: Nat.toDigits 10 count ++ "-digit ".toList ++ name ++ ['\x7d'])

/-- The label of the part can be written; a count that is too long cannot. -/
def isLabelWritable : Part → Bool
  | digits count _ => Text.isWritable count
  | _ => true

inductive LabelFault where
  | listed
  | longCount
  deriving DecidableEq, Repr

def label (part : Part) : Except LabelFault Text :=
  match part.placeholder? with
  | none => .error .listed
  | some shown => if part.isLabelWritable then .ok shown else .error .longCount

def completions : Part → Text → Offer
  | literal text, rest => .values (if rest.isPrefixOf text then [text] else [])
  | options choices, rest => .values (choices.filter (rest.isPrefixOf ·))
  | part@(number _), rest =>
    if rest.isEmpty then .placeholder (part.placeholder?.getD [])
    else .values (if isNumeral rest then [rest] else [])
  | part@(digits count _), rest =>
    if rest.length == count && isNumeral rest then .values [rest]
    else if rest.length < count && (rest.isEmpty || isNumeral rest) then
      .placeholder (part.placeholder?.getD [])
    else .values []

def offer (part : Part) (rest : Text) : Except LabelFault Offer :=
  match part.completions rest with
  | .values texts => .ok (.values texts)
  | .placeholder _ => part.label.map .placeholder

def capture : Part → Text → Except Text.IntegerFault Capture
  | literal _, value | options _, value => .ok (.text value)
  | number _, value | digits _ _, value => (Text.readInteger value).map .number

end Part
end SearchBar
