import SearchBar.Suggestion
import SearchBar.Sequence

namespace SearchBar

inductive ApplyFault where
  | noFilter
  | noDraft
  | factory (fault : FactoryFault)
  deriving DecidableEq, Repr

inductive Applied where
  | unchanged
  | changed (filters : List Filter)

/-- The outcome, and the list that was handed in as it stands afterwards: its draft is
edited in place. -/
structure Application where
  outcome : Except ApplyFault Applied
  input : List Filter

def Suggestion.complete (s : Suggestion) (draft : Text) : Text :=
  Sequence.before draft s.index ++ s.value

/-- A template changes nothing. A suggestion up to some stage extends the draft. One that
reaches the end empties the draft first and then adds the filter built from its text. -/
def apply (filters : List Filter) (s : Suggestion) : Application :=
  if s.template then ⟨.ok .unchanged, filters⟩
  else
    match filters with
    | [] => ⟨.error .noFilter, filters⟩
    | .draft text :: others =>
      let completed := s.complete text
      match s.reach with
      | .stage =>
        let edited := .draft completed :: others
        ⟨.ok (.changed edited), edited⟩
      | .full =>
        let emptied := .draft [] :: others
        match s.definition.build completed with
        | .error fault => ⟨.error (.factory fault), emptied⟩
        | .ok filter => ⟨.ok (.changed (emptied ++ [filter])), emptied⟩
    | _ :: _ => ⟨.error .noDraft, filters⟩

def Application.filters? (a : Application) : Except ApplyFault (List Filter) :=
  a.outcome.map fun
    | .unchanged => a.input
    | .changed filters => filters

end SearchBar
