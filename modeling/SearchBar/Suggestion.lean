import SearchBar.Definition.Scan

/-! Suggestions: how a draft may go on.
Parts with a single value are folded into the suggestion of the part after them. As soon as
one definition ends a part where the text ends, only such definitions contribute. -/
namespace SearchBar

inductive Reach where
  | full
  | stage
  deriving DecidableEq, Repr

/-- A way to go on: the text from `index` on is replaced by `value`. A template names what
the user has to type and is not applied. -/
structure Suggestion where
  index : Int
  value : Text
  showAs : Text
  definition : Definition
  reach : Reach
  template : Bool

/-- A suggestion before it is known where and for which definition. -/
structure Candidate where
  value : Text
  showAs : Text
  reach : Reach
  template : Bool
  deriving DecidableEq, Repr

def Candidate.behind (value : Text) (c : Candidate) : Candidate :=
  { c with value := value ++ c.value, showAs := value ++ c.showAs }

def candidates : List Part → Text → List Candidate
  | [], _ => []
  | part :: parts, rest =>
    match part.completions rest with
    | .placeholder label => [⟨[], label, .stage, true⟩]
    | .values texts =>
      if parts.isEmpty then texts.map fun text => ⟨text, text, .full, false⟩
      else
        match texts with
        | [text] => (candidates parts []).map (·.behind text)
        | _ => texts.map fun text => ⟨text, text, .stage, false⟩

/-- The part whose label the ways to go on consist of, if they are a template. -/
def labelled? : List Part → Text → Option Part
  | [], _ => none
  | part :: parts, rest =>
    match part.completions rest with
    | .placeholder _ => some part
    | .values [_] => labelled? parts []
    | .values _ => none

namespace Suggestion

def ofCandidate (d : Definition) (index : Nat) (c : Candidate) : Suggestion :=
  ⟨index, c.value, c.showAs, d, c.reach, c.template⟩

def same (a b : Suggestion) : Bool :=
  a.index == b.index && a.value == b.value && a.showAs == b.showAs &&
    a.definition.same b.definition && a.reach == b.reach && a.template == b.template

end Suggestion

def Definition.suggestionsAt (d : Definition) (text : Text) (scan : Scan) : List Suggestion :=
  match scan.state with
  | .complete =>
    let matched := text.drop scan.position
    [⟨scan.position, matched, matched, d, .full, false⟩]
  | .resolved | .begun =>
    (candidates (d.grammar.drop scan.part) (text.drop scan.position)).map
      (Suggestion.ofCandidate d scan.position)
  | .unmatched | .overmatched => []

def Definition.labelsWritable (d : Definition) (text : Text) (scan : Scan) : Bool :=
  match scan.state with
  | .resolved | .begun =>
    (labelled? (d.grammar.drop scan.part) (text.drop scan.position)).all Part.isLabelWritable
  | .complete | .unmatched | .overmatched => true

def Definition.suggestions (d : Definition) (text : Text) : List Suggestion :=
  d.suggestionsAt text (d.scan text)

def Definition.suggest (d : Definition) (text : Text) :
    Except Part.LabelFault (List Suggestion) :=
  if d.labelsWritable text (d.scan text) then .ok (d.suggestions text) else .error .longCount

def contributors (definitions : List Definition) (text : Text) : List (Definition × Scan) :=
  let scans := definitions.map fun d => (d, d.scan text)
  if scans.any (·.2.isResolved) then scans.filter (·.2.isResolved) else scans

def addNew (suggestions : List Suggestion) (s : Suggestion) : List Suggestion :=
  if suggestions.any (·.same s) then suggestions else suggestions ++ [s]

def suggestionsFor (definitions : List Definition) (text : Text) : List Suggestion :=
  ((contributors definitions text).flatMap fun (d, scan) => d.suggestionsAt text scan).foldl
    addNew []

def suggest (definitions : List Definition) (text : Text) :
    Except Part.LabelFault (List Suggestion) :=
  if (contributors definitions text).all fun (d, scan) => d.labelsWritable text scan then
    .ok (suggestionsFor definitions text)
  else .error .longCount

end SearchBar
