import SearchBar.Completing

namespace SearchBar

variable {draft : Text} {others : List Filter} {s : Suggestion}

theorem filters?_apply_template (template : s.template = true) :
    (apply (.draft draft :: others) s).filters? = .ok (.draft draft :: others) := by
  simp [apply, template, Application.filters?, Except.map]

theorem filters?_apply_stage (real : s.template = false) (stage : s.reach = .stage) :
    (apply (.draft draft :: others) s).filters? = .ok (.draft (s.complete draft) :: others) := by
  simp [apply, real, stage, Application.filters?, Except.map]

theorem filters?_apply_build (real : s.template = false) (full : s.reach = .full) :
    (apply (.draft draft :: others) s).filters? =
      ((s.definition.build (s.complete draft)).map fun filter =>
        .draft [] :: (others ++ [filter])).mapError .factory := by
  cases made : s.definition.build (s.complete draft) with
  | error fault =>
    simp only [apply, real, full, made]
    rfl
  | ok filter =>
    simp only [apply, real, full, made]
    rfl

theorem filters?_apply_full (real : s.template = false) (full : s.reach = .full)
    (plain : s.definition.factory = none) :
    (apply (.draft draft :: others) s).filters? =
      .ok (.draft [] :: (others ++ [.finished s.definition (s.complete draft)])) := by
  rw [filters?_apply_build real full]
  simp only [Definition.build, plain]
  rfl

theorem Definition.build_eq_error_iff {d : Definition} {text : Text} {cause : FactoryFault} :
    d.build text = .error cause ↔
      ∃ factory, d.factory = some factory ∧ factory text = .error cause := by
  unfold build
  cases made : d.factory with
  | none => simp
  | some factory => cases refused : factory text <;> simp [Except.map, refused]

theorem outcome_eq_error_iff {fault : ApplyFault} :
    (apply (.draft draft :: others) s).outcome = .error fault ↔
      s.template = false ∧ s.reach = .full ∧
        ∃ cause, s.definition.build (s.complete draft) = .error cause ∧ fault = .factory cause := by
  cases template : s.template with
  | true => simp [apply, template]
  | false =>
    cases reach : s.reach with
    | stage => simp [apply, template, reach]
    | full =>
      cases built : s.definition.build (s.complete draft) with
      | ok filter => simp [apply, template, reach, built]
      | error cause => simp [apply, template, reach, built, eq_comm]

theorem input_of_outcome_error {fault : ApplyFault}
    (failed : (apply (.draft draft :: others) s).outcome = .error fault) :
    (apply (.draft draft :: others) s).input = .draft [] :: others := by
  obtain ⟨real, full, cause, built, -⟩ := outcome_eq_error_iff.mp failed
  simp [apply, real, full, built]

/-- An application fails exactly where a factory refuses the text of a suggestion that reaches
the end. The filters behind the draft stay, and the draft is empty: it is as it was only if
nothing was typed. -/
theorem failure_empties_draft (draft : Text) (others : List Filter) (s : Suggestion)
    (fault : ApplyFault) :
    ((apply (.draft draft :: others) s).outcome = .error fault ↔
      s.template = false ∧ s.reach = .full ∧ ∃ factory cause,
        s.definition.factory = some factory ∧ factory (s.complete draft) = .error cause ∧
          fault = .factory cause) ∧
    ((apply (.draft draft :: others) s).outcome = .error fault →
      (apply (.draft draft :: others) s).input = .draft [] :: others ∧
      ((apply (.draft draft :: others) s).input = .draft draft :: others ↔ draft = [])) := by
  constructor
  · rw [outcome_eq_error_iff]
    constructor
    · rintro ⟨real, full, cause, built, rfl⟩
      obtain ⟨factory, own, refused⟩ := Definition.build_eq_error_iff.mp built
      exact ⟨real, full, factory, cause, own, refused, rfl⟩
    · rintro ⟨real, full, factory, cause, own, refused, rfl⟩
      exact ⟨real, full, cause, Definition.build_eq_error_iff.mpr ⟨factory, own, refused⟩, rfl⟩
  · intro failed
    have emptied := input_of_outcome_error failed
    refine ⟨emptied, ?_⟩
    rw [emptied]
    constructor
    · intro same
      injection same with front
      injection front with empty
      exact empty.symm
    · rintro rfl
      rfl

def brokenSwitch : Definition where
  tag := 0
  id := "on"
  name := "On"
  grammar := [.literal ['o', 'n']]
  description := none
  source := none
  factory := some fun text => .error ⟨String.ofList text⟩
  grammar_ne_nil := by decide
  grammar_valid := by decide

/-- The suggestion offered for the beginning of a switch takes what was typed with it. -/
theorem typed_text_lost : ∃ s fault, suggest [brokenSwitch] ['o'] = .ok [s] ∧
    (apply [.draft ['o']] s).outcome = .error fault ∧
    (apply [.draft ['o']] s).input ≠ [.draft ['o']] := by
  refine ⟨⟨0, ['o', 'n'], ['o', 'n'], brokenSwitch, .full, false⟩, _, rfl, rfl, ?_⟩
  intro same
  injection same with front
  injection front with empty
  cases empty

end SearchBar
