import SearchBar.Proofs.Suggesting

/-! What the suggestions for a draft make of it.
Suggestions give an index and a value, and where a scan stops decides about both. The drafts that
they make only depend on the parts and on the text: the parts take their pieces of it, and the
first one that takes nothing is gone on from. -/
namespace SearchBar

structure Extension where
  text : Text
  reach : Reach
  template : Bool
  deriving DecidableEq

def Extension.behind (front : Text) (e : Extension) : Extension :=
  { e with text := front ++ e.text }

def Candidate.extension (c : Candidate) : Extension :=
  ⟨c.value, c.reach, c.template⟩

def Suggestion.extension (draft : Text) (s : Suggestion) : Extension :=
  ⟨s.complete draft, s.reach, s.template⟩

/-- The ways to go on from the first of the parts, if their label can be written. -/
def ways (parts : List Part) (rest : Text) : Except Part.LabelFault (List Extension) :=
  if (labelled? parts rest).all Part.isLabelWritable then
    .ok ((candidates parts rest).map Candidate.extension)
  else .error .longCount

/-- The extensions of a text that the parts are to read, without the positions of a scan. -/
def outlook : List Part → Text → Except Part.LabelFault (List Extension)
  | [], [] => .ok [⟨[], .full, false⟩]
  | [], _ :: _ => .ok []
  | part :: parts, text =>
    match part.consume? text with
    | some n => (outlook parts (text.drop n)).map (List.map (·.behind (text.take n)))
    | none => ways (part :: parts) text

variable {part : Part} {parts others before after : List Part} {text rest left : Text}
  {pieces : List Text} {d : Definition}

theorem behind_behind (front more : Text) (result : Except Part.LabelFault (List Extension)) :
    (result.map (List.map (·.behind more))).map (List.map (·.behind front)) =
      result.map (List.map (·.behind (front ++ more))) := by
  cases result with
  | error fault => rfl
  | ok found => simp [Except.map, Extension.behind, Function.comp_def]

theorem ways_cons (part : Part) (parts : List Part) (rest : Text) :
    ways (part :: parts) rest =
      match part.completions rest with
      | .placeholder _ =>
        if part.isLabelWritable then .ok [⟨[], .stage, true⟩] else .error .longCount
      | .values texts =>
        if parts = [] then .ok (texts.map fun text => ⟨text, .full, false⟩)
        else
          match texts with
          | [text] => (ways parts []).map (List.map (·.behind text))
          | _ => .ok (texts.map fun text => ⟨text, .stage, false⟩) := by
  unfold ways
  rw [labelled?, candidates]
  cases part.completions rest with
  | placeholder label => rfl
  | values texts =>
    cases parts with
    | nil =>
      cases texts with
      | nil => rfl
      | cons text more => cases more <;> simp [labelled?, Candidate.extension]
    | cons next parts =>
      obtain _ | ⟨text, _ | ⟨second, more⟩⟩ := texts
      · rfl
      · simp only [List.isEmpty_cons, Bool.false_eq_true, if_false, List.cons_ne_nil]
        split
        · simp [Except.map, Candidate.extension, Candidate.behind, Extension.behind]
        · rfl
      · simp [Candidate.extension]

theorem consume?_nil (valid : part.Valid) : part.consume? [] = none :=
  (Part.consume?_eq_none_iff valid).mpr (Part.awaits_nil valid).stuck

theorem outlook_nil (valid : ∀ p ∈ parts, p.Valid) (more : parts ≠ []) :
    outlook parts [] = ways parts [] := by
  obtain ⟨part, others, rfl⟩ := List.exists_cons_of_ne_nil more
  rw [outlook, consume?_nil (valid part List.mem_cons_self)]

theorem ways_of_lost (valid : part.Valid) (lost : ¬ part.Leads rest) :
    ways (part :: parts) rest = .ok [] := by
  have exact := part.completions_exact valid rest
  rw [ways_cons]
  split
  · rename_i label offered
    rw [offered] at exact
    exact False.elim (lost exact.2)
  · rename_i texts offered
    rw [offered] at exact
    have none : texts = [] := by
      apply List.eq_nil_iff_forall_not_mem.mpr
      intro text listed
      exact lost ⟨text, exact.1 text listed⟩
    simp [none]

theorem outlook_append (valid : ∀ p ∈ before, p.Valid) (reads : Reads before text pieces left) :
    outlook (before ++ after) text =
      (outlook after left).map (List.map (·.behind pieces.flatten)) := by
  induction reads with
  | done rest =>
    have same : ∀ e : Extension, e.behind [] = e := fun _ => rfl
    rw [List.nil_append]
    cases outlook after rest <;> simp [Except.map, same]
  | @take part parts text piece rest pieces longest _ ih =>
    obtain ⟨first, behind⟩ := List.forall_mem_cons.mp valid
    have taken := (Part.consume?_eq_some_iff first).mpr ⟨piece, longest, rfl⟩
    rw [List.cons_append, outlook, taken]
    simp only [ih behind, behind_behind, List.flatten_cons]
    rw [← List.prefix_iff_eq_take.mp longest.begins]

theorem extension_ofCandidate (stop : Stop d.grammar text before after pieces left)
    (c : Candidate) :
    (Suggestion.ofCandidate d pieces.flatten.length c).extension text =
      c.extension.behind pieces.flatten := by
  simp only [Suggestion.extension, Suggestion.complete_ofCandidate stop]
  rfl

theorem extensions_of_stop (stop : Stop d.grammar text before (part :: others) pieces left) :
    (d.suggest text).map (List.map (Suggestion.extension text)) =
      (ways (part :: others) left).map (List.map (·.behind pieces.flatten)) := by
  obtain ⟨-, known⟩ := stop.parts_valid d.grammar_valid
  have valid : part.Valid := known part List.mem_cons_self
  have made := Definition.suggestions_of_stop stop
  by_cases leads : part.Leads left
  · have parts_eq : d.grammar.drop before.length = part :: others := by
      rw [stop.parts_eq, List.drop_left]
    have rest_eq : text.drop pieces.flatten.length = left := by
      rw [stop.text_eq, List.drop_left]
    have written : d.labelsWritable text (d.scan text) =
        (labelled? (part :: others) left).all Part.isLabelWritable := by
      by_cases more : left = []
      · subst more
        simp only [Definition.labelsWritable, Definition.scan_of_boundary stop, parts_eq, rest_eq]
      · simp only [Definition.labelsWritable, (Definition.scan_of_inside stop more).1 leads,
          parts_eq, rest_eq]
    rw [Definition.suggest, made, written, ways]
    split
    · simp only [Except.map, List.map_map, Function.comp_def, extension_ofCandidate stop]
    · rfl
  · -- a text that leads to no value is lost, so nothing is suggested and no label is written
    have more : left ≠ [] := fun empty => leads (empty ▸ Part.leads_nil valid)
    have scanned := (Definition.scan_of_inside stop more).2 leads
    rw [Definition.suggest, made, ways_of_lost valid leads, candidates_eq_nil valid leads]
    simp [Definition.labelsWritable, scanned, Except.map]

theorem extension_closing (d : Definition) (text : Text) (pieces : List Text) :
    (Suggestion.closing d text pieces).extension text = ⟨text, .full, false⟩ := by
  rw [Suggestion.extension, Suggestion.complete_closing]
  rfl

/-- The suggestions for a draft make of it what the parts make of its text. -/
theorem extensions_suggest (d : Definition) (text : Text) :
    (d.suggest text).map (List.map (Suggestion.extension text)) = outlook d.grammar text := by
  obtain ⟨before, after, pieces, left, stop⟩ := exists_stop d.grammar_valid text
  obtain ⟨readable, known⟩ := stop.parts_valid d.grammar_valid
  rw [stop.parts_eq, outlook_append readable stop.reads]
  cases after with
  | nil =>
    by_cases more : left = []
    · subst more
      have whole := stop.text_eq
      rw [List.append_nil] at whole
      rw [Definition.suggest, Definition.suggestions_of_done stop, Definition.scan_of_done stop]
      simp only [Definition.labelsWritable, if_true, Except.map, List.map_singleton,
        extension_closing, outlook, Extension.behind, List.append_nil, whole]
    · rw [Definition.suggest, Definition.suggestions_of_overrun stop more,
        Definition.scan_of_overrun stop more]
      obtain ⟨c, rest, rfl⟩ := List.exists_cons_of_ne_nil more
      rfl
  | cons part others =>
    have valid : part.Valid := known part List.mem_cons_self
    have untaken : part.consume? left = none := by
      by_cases empty : left = []
      · rw [empty, consume?_nil valid]
      · exact (Part.consume?_eq_none_iff valid).mpr (stop.stuck empty part rfl)
    rw [extensions_of_stop stop, outlook, untaken]

end SearchBar
