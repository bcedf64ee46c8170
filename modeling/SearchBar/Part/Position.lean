import SearchBar.Part.Basic
import SearchBar.Sequence

/-! Parts at a position of a text.
A negative position counts from the end. A number that starts there may run on past the end to
the first character, and counts for as much of the run as lies in one piece. -/
namespace SearchBar.Part

inductive PositionFault where
  | outside
  deriving DecidableEq, Repr

def startsAt (text word : Text) (position : Int) : Bool :=
  let start := Sequence.bound text.length position
  (List.range word.length).all fun i => text[start + i]? == word[i]?

/-- Where the run of digits from a position on ends. -/
def digitRunEnd (text : Text) (position : Int) : Except PositionFault Int :=
  if position < text.length then
    match Sequence.item? text position with
    | none => .error .outside
    | some c => if c.isDigit then digitRunEnd text (position + 1) else .ok position
  else .ok position
termination_by (text.length - position).toNat

def consumeAt? (part : Part) (text : Text) (position : Int) :
    Except PositionFault (Option Nat) :=
  match part with
  | literal word => .ok (if startsAt text word position then some word.length else none)
  | options choices =>
    .ok (choices.foldl (fun best choice =>
      if startsAt text choice position && best.all (· < choice.length) then some choice.length
      else best) none)
  | number _ => do
    let stop ← digitRunEnd text position
    let run := Sequence.between text position stop
    return if run.isEmpty then none else some run.length
  | digits count _ =>
    let candidate := Sequence.between text position (position + count)
    .ok (if candidate.length == count && isNumeral candidate then some count else none)

def isBegunAt (part : Part) (text : Text) (position : Int) : Bool :=
  part.isBegun (Sequence.onward text position)

def offerAt (part : Part) (text : Text) (position : Int) : Except LabelFault Offer :=
  part.offer (Sequence.onward text position)

end SearchBar.Part
