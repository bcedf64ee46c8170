import SearchBar.Proofs.Suggesting

namespace SearchBar

theorem Definition.accepts_iff_settled {d : Definition} {text : Text} :
    d.accepts text = true ↔
      ∃ pieces, Fits d.grammar pieces ∧ text = pieces.flatten ∧ Settled d.grammar pieces := by
  rw [accepts_iff]
  constructor
  · rintro ⟨pieces, reads⟩
    have whole := reads.flatten_append
    rw [List.append_nil] at whole
    exact ⟨pieces, reads.fits, whole.symm, reads.settled⟩
  · rintro ⟨pieces, fits, rfl, settled⟩
    exact ⟨pieces, reads_of_settled fits settled⟩

theorem Definition.accepts_of_separated {d : Definition} {pieces : List Text}
    (separated : d.Separated) (fits : Fits d.grammar pieces) :
    d.accepts pieces.flatten = true :=
  accepts_iff_settled.mpr
    ⟨pieces, fits, rfl, settled_of_separated d.grammar_valid separated fits⟩

theorem integer_of_captures_error {parts : List Part} {pieces : List Text} {fault : ParseFault}
    (failed : captures parts pieces = .error fault) : ∃ cause, fault = .integer cause := by
  induction parts generalizing pieces with
  | nil => cases failed
  | cons part parts ih =>
    cases pieces with
    | nil => cases failed
    | cons piece pieces =>
      simp only [captures] at failed
      split at failed
      · cases failed
        exact ⟨_, rfl⟩
      · cases others : captures parts pieces with
        | error cause =>
          rw [others] at failed
          cases failed
          exact ih others
        | ok values =>
          rw [others] at failed
          cases failed

theorem Definition.parse_eq_mismatch_iff (d : Definition) (text : Text) :
    d.parse text = .error (.mismatch text d.id) ↔ d.accepts text = false := by
  unfold parse accepts
  cases d.pieces? text with
  | none => simp
  | some pieces =>
    constructor
    · intro failed
      obtain ⟨cause, impossible⟩ := integer_of_captures_error failed
      cases impossible
    · intro impossible; cases impossible

/-- A suggestion that reaches the end is written in one value for each part. Its text is read
back in those pieces exactly if no part can take more than its own, and it is accepted exactly
if that holds of some way of writing it. The filter that is added finds no values otherwise. -/
theorem full_suggestion_accepted_iff {definitions : List Definition} {draft : Text}
    {offered : List Suggestion} {s : Suggestion} (given : suggest definitions draft = .ok offered)
    (member : s ∈ offered) (full : s.reach = .full) :
    s.template = false ∧
    (∃ pieces, Fits s.definition.grammar pieces ∧ s.complete draft = pieces.flatten ∧
      (s.definition.pieces? (s.complete draft) = some pieces ↔
        Settled s.definition.grammar pieces)) ∧
    (s.definition.accepts (s.complete draft) = true ↔
      ∃ pieces, Fits s.definition.grammar pieces ∧ s.complete draft = pieces.flatten ∧
        Settled s.definition.grammar pieces) ∧
    (s.definition.Separated → s.definition.accepts (s.complete draft) = true) ∧
    (s.definition.factory = none → ∀ others, ∃ finished,
      (apply (.draft draft :: others) s).outcome =
        .ok (.changed (.draft [] :: others ++ [finished])) ∧
      finished = .finished s.definition (s.complete draft) ∧
      (s.definition.parse (s.complete draft) =
          .error (.mismatch (s.complete draft) s.definition.id) ↔
        s.definition.accepts (s.complete draft) = false)) := by
  rw [suggest_eq_ok given] at member
  obtain ⟨-, own⟩ := mem_definitions_of_mem_suggestionsFor member
  obtain ⟨-, before, after, pieces, covers⟩ := Definition.covers_of_mem_suggestions own
  obtain ⟨real, fits⟩ := covers.fits_of_full full
  refine ⟨real, ⟨pieces, fits, covers.complete_eq, ?_⟩, Definition.accepts_iff_settled, ?_, ?_⟩
  · rw [Definition.pieces?_eq_some_iff, covers.complete_eq]
    exact ⟨Reads.settled, reads_of_settled fits⟩
  · intro separated
    rw [covers.complete_eq]
    exact Definition.accepts_of_separated separated fits
  · intro plain others
    refine ⟨_, ?_, rfl, s.definition.parse_eq_mismatch_iff _⟩
    simp [apply, real, full, Definition.build, plain]

def comparison : Definition where
  tag := 0
  id := "comparison"
  name := "Comparison"
  grammar := [.options [['<'], ['<', '=']], .options [['='], ['>']]]
  description := none
  source := none
  factory := none
  grammar_ne_nil := by decide
  grammar_valid := by decide

theorem comparison_settled : ∃ offered s, suggest [comparison] ['<'] = .ok offered ∧
    s ∈ offered ∧ s.reach = .full ∧ s.complete ['<'] = ['<', '>'] ∧
    ∃ pieces, Fits s.definition.grammar pieces ∧ s.complete ['<'] = pieces.flatten ∧
      Settled s.definition.grammar pieces := by
  have given : suggest [comparison] ['<'] = .ok [⟨1, ['='], ['='], comparison, .full, false⟩,
    ⟨1, ['>'], ['>'], comparison, .full, false⟩] := rfl
  refine ⟨_, ⟨1, ['>'], ['>'], comparison, .full, false⟩, given, by simp, rfl, rfl, ?_⟩
  exact (full_suggestion_accepted_iff given (by simp) rfl).2.2.1.mp rfl

/-- With the first one the first part takes the whole text, and nothing is left to match. -/
theorem comparison_overrun : ∃ offered s, suggest [comparison] ['<'] = .ok offered ∧
    s ∈ offered ∧ s.template = false ∧ s.reach = .full ∧
    s.definition.accepts (s.complete ['<']) = false ∧
    (apply [.draft ['<']] s).outcome =
      .ok (.changed [.draft [], .finished s.definition ['<', '=']]) ∧
    s.definition.parse ['<', '='] = .error (.mismatch ['<', '='] s.definition.id) := by
  have given : suggest [comparison] ['<'] = .ok [⟨1, ['='], ['='], comparison, .full, false⟩,
    ⟨1, ['>'], ['>'], comparison, .full, false⟩] := rfl
  exact ⟨_, ⟨1, ['='], ['='], comparison, .full, false⟩, given, by simp, rfl, rfl, rfl, rfl, rfl⟩

end SearchBar
