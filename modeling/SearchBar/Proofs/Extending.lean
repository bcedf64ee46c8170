import SearchBar.Proofs.Suggesting

namespace SearchBar

def Definition.Writes (d : Definition) (k : Nat) (text : Text) : Prop :=
  ∃ pieces, Fits (d.grammar.take k) pieces ∧ text = pieces.flatten

/-- What a suggestion makes of the draft goes on from all of it, and stays with the parts. -/
structure Suggestion.Adds (text : Text) (s : Suggestion) : Prop where
  begins : text <+: s.complete text
  longer_iff : text.length < (s.complete text).length ↔ s.definition.accepts text = false
  shown : s.showAs = s.value
  written : ∃ k, s.definition.Writes k (s.complete text) ∧
    (s.reach = .full → k = s.definition.grammar.length) ∧
    (s.reach = .stage → 1 ≤ k ∧ k < s.definition.grammar.length)

structure Suggestion.Names (text : Text) (s : Suggestion) : Prop where
  stage : s.reach = .stage
  stops : ∃ k part label, k < s.definition.grammar.length ∧
    s.definition.Writes k (s.complete text) ∧ s.definition.grammar[k]? = some part ∧
    ((∃ name, part = .number name) ∨ ∃ count name, part = .digits count name) ∧
    part.placeholder? = some label ∧ s.showAs = s.value ++ label

structure Suggestion.Extends (text : Text) (s : Suggestion) : Prop where
  within : 0 ≤ s.index ∧ s.index ≤ text.length
  viable : ∃ whole, s.definition.Writes s.definition.grammar.length whole ∧ text <+: whole
  real : s.template = false → s.Adds text
  template : s.template = true → s.Names text

variable {d : Definition} {s : Suggestion} {text left : Text} {pieces more : List Text}
  {before after : List Part}

theorem Part.digits_of_placeholder? {part : Part} {label : Text}
    (named : part.placeholder? = some label) :
    (∃ name, part = .number name) ∨ ∃ count name, part = .digits count name := by
  cases part with
  | literal word => cases named
  | options choices => cases named
  | number name => exact .inl ⟨name, rfl⟩
  | digits count name => exact .inr ⟨count, name, rfl⟩

theorem lastStart_le {position last : Nat} (le : last ≤ position) (pieces : List Text) :
    lastStart position last pieces ≤ position + pieces.flatten.length := by
  induction pieces generalizing position last with
  | nil => exact le
  | cons piece pieces ih =>
    have rest := ih (Nat.le_add_right position piece.length)
    simp only [lastStart, List.flatten_cons, List.length_append]
    omega

theorem Stop.accepts_iff (stop : Stop d.grammar text before after pieces left) :
    d.accepts text = true ↔ after = [] ∧ left = [] := by
  rw [Definition.accepts_iff]
  exact stop.reads_iff d.grammar_valid

theorem Definition.exists_writes_of_viable (fine : Viable d.grammar text) :
    ∃ whole, d.Writes d.grammar.length whole ∧ text <+: whole := by
  obtain ⟨all, fits, begins⟩ := fine.exists_whole d.grammar_valid
  exact ⟨all.flatten, ⟨all, by rwa [List.take_length], rfl⟩, begins⟩

theorem Suggestion.Covers.writes (covers : s.Covers text before after pieces) :
    s.definition.Writes before.length (s.complete text) := by
  refine ⟨pieces, ?_, covers.complete_eq⟩
  rw [covers.grammar_eq, List.take_left]
  exact covers.fits

theorem Candidate.Covers.longer {c : Candidate} {part : Part} {others added behind : List Part}
    (covers : c.Covers (part :: others) left added behind more)
    (stop : Stop d.grammar text before (part :: others) pieces left)
    (real : c.template = false) : left.length < c.value.length := by
  have valid : part.Valid := (stop.parts_valid d.grammar_valid).2 part (by simp)
  rcases covers.kind with ⟨template, -⟩ | ⟨-, -, begins, nonempty, -⟩
  · rw [real] at template
    cases template
  · have parts_eq := covers.parts_eq
    have value_eq := covers.value_eq
    have fits := covers.fits
    cases fits with
    | nil => exact False.elim (nonempty rfl)
    | @cons first value _ _ allowed _ =>
      obtain ⟨rfl, -⟩ := List.cons.inj parts_eq
      apply Nat.lt_of_le_of_ne begins.length_le
      intro same
      have typed : value <+: left := by
        rw [begins.eq_of_length same, value_eq]
        exact List.prefix_append _ _
      by_cases empty : left = []
      · subst empty
        exact Part.ne_nil_of_allows valid allowed (List.prefix_nil.mp typed)
      · exact stop.stuck empty part rfl value allowed typed

theorem Suggestion.adds_of_candidate {c : Candidate} {part : Part}
    {others added behind : List Part}
    (stop : Stop d.grammar text before (part :: others) pieces left)
    (covers : c.Covers (part :: others) left added behind more) (real : c.template = false) :
    (ofCandidate d pieces.flatten.length c).Adds text := by
  have whole := covers_of_candidate stop covers
  have size : d.grammar.length = (before ++ added).length + behind.length := by
    rw [← List.length_append]
    exact congrArg List.length whole.grammar_eq
  have unread : d.accepts text = false := by
    rw [Bool.eq_false_iff]
    intro accepted
    cases (stop.accepts_iff.mp accepted).1
  rcases covers.kind with ⟨template, -⟩ | ⟨-, shown, begins, nonempty, last⟩
  · rw [real] at template
    cases template
  · refine ⟨?_, iff_of_true ?_ unread, shown, (before ++ added).length, whole.writes, ?_, ?_⟩
    · rw [complete_ofCandidate stop, stop.text_eq]
      exact (List.prefix_append_right_inj _).mpr begins
    · have longer := covers.longer stop real
      rw [complete_ofCandidate stop, stop.text_eq, List.length_append, List.length_append]
      omega
    · intro full
      show _ = d.grammar.length
      rw [size, last.mp full]
      rfl
    · intro stage
      have covered := List.length_pos_iff.mpr nonempty
      have further : behind ≠ [] := by
        intro empty
        have full : c.reach = .full := last.mpr empty
        rw [show c.reach = .stage from stage] at full
        cases full
      have remaining := List.length_pos_iff.mpr further
      show 1 ≤ _ ∧ _ < d.grammar.length
      rw [List.length_append] at size ⊢
      omega

theorem Suggestion.names_of_candidate {c : Candidate} {part : Part}
    {others added behind : List Part}
    (stop : Stop d.grammar text before (part :: others) pieces left)
    (covers : c.Covers (part :: others) left added behind more) (template : c.template = true) :
    (ofCandidate d pieces.flatten.length c).Names text := by
  have whole := covers_of_candidate stop covers
  rcases covers.kind with ⟨-, stage, named, head, label, shows, shown⟩ | ⟨real, -⟩
  · have there : d.grammar[(before ++ added).length]? = some named := by
      rw [show d.grammar = _ from whole.grammar_eq, List.getElem?_append_right (Nat.le_refl _),
        Nat.sub_self, ← List.head?_eq_getElem?]
      exact head
    obtain ⟨bound, -⟩ := List.getElem?_eq_some_iff.mp there
    exact ⟨stage, _, named, label, bound, whole.writes, there,
      Part.digits_of_placeholder? shows, shows, shown⟩
  · rw [template] at real
    cases real

theorem Suggestion.adds_closing (reads : Reads d.grammar text pieces []) :
    (closing d text pieces).Adds text := by
  have text_eq : text = pieces.flatten := by rw [← reads.flatten_append, List.append_nil]
  have accepted : d.accepts text = true := Definition.accepts_iff.mpr ⟨pieces, reads⟩
  have fits : Fits (d.grammar.take d.grammar.length) pieces := by
    rw [List.take_length]
    exact reads.fits
  have same := complete_closing d text pieces
  refine ⟨?_, iff_of_false ?_ ?_, rfl, d.grammar.length, ⟨pieces, fits, ?_⟩, fun _ => rfl, ?_⟩
  · exact same.symm ▸ List.prefix_refl text
  · rw [same]
    exact Nat.lt_irrefl _
  · show ¬ d.accepts text = false
    rw [accepted]
    exact Bool.noConfusion
  · rw [same]
    exact text_eq
  · intro stage
    cases stage

theorem Definition.extends_of_mem_suggestions (member : s ∈ d.suggestions text) :
    s.definition = d ∧ s.Extends text := by
  have viable : ∃ whole, d.Writes d.grammar.length whole ∧ text <+: whole := by
    apply Classical.byContradiction
    intro beyond
    rw [(d.suggestions_eq_nil_iff text).mpr fun fine => beyond (exists_writes_of_viable fine)]
      at member
    cases member
  rcases mem_suggestions_cases member with ⟨pieces, reads, rfl⟩ |
    ⟨before, part, others, pieces, left, c, added, behind, more, stop, covers, rfl⟩
  · refine ⟨rfl, ⟨?_, viable, fun _ => Suggestion.adds_closing reads, fun template => ?_⟩⟩
    · have bound := lastStart_le (Nat.le_refl 0) pieces
      rw [← reads.flatten_append, List.append_nil]
      show (0 : Int) ≤ (lastStart 0 0 pieces : Nat) ∧ ((lastStart 0 0 pieces : Nat) : Int) ≤ _
      omega
    · cases template
  · refine ⟨rfl, ⟨?_, viable, Suggestion.adds_of_candidate stop covers,
      Suggestion.names_of_candidate stop covers⟩⟩
    rw [stop.text_eq, List.length_append]
    show (0 : Int) ≤ (pieces.flatten.length : Nat) ∧ ((pieces.flatten.length : Nat) : Int) ≤ _
    omega

theorem suggest_eq_nil {definitions : List Definition}
    (lost : ∀ d ∈ definitions, ¬ Viable d.grammar text) : suggest definitions text = .ok [] := by
  have nothing : ∀ entry ∈ contributors definitions text,
      entry.1.suggestionsAt text entry.2 = [] ∧ entry.1.labelsWritable text entry.2 = true := by
    rintro ⟨d, scan⟩ contributes
    obtain ⟨declared, rfl⟩ := mem_contributors contributes
    have unfit := lost d declared
    exact ⟨(d.suggestions_eq_nil_iff text).mpr unfit, Definition.labelsWritable_of_isLost
      ((isLost_iff_not_viable d.grammar_valid 0 0 0).mpr unfit)⟩
  unfold suggest
  rw [if_pos (List.all_eq_true.mpr fun entry among => (nothing entry among).2), suggestionsFor,
    List.flatMap_eq_nil_iff.mpr fun entry among => (nothing entry among).1]
  rfl

/-- Every suggestion belongs to one of the definitions and extends the draft inside its grammar.
A draft longer than every text in values of all parts has none. Suggestions can be made unless a
count of digits is too long to be written. -/
theorem suggestions_extend (definitions : List Definition) (text : Text) :
    (∀ offered, suggest definitions text = .ok offered →
      ∀ s ∈ offered, s.definition ∈ definitions ∧ s.Extends text) ∧
    ((∀ d ∈ definitions, ∀ whole, d.Writes d.grammar.length whole →
      whole.length < text.length) → suggest definitions text = .ok []) ∧
    ((∀ d ∈ definitions, ∀ part ∈ d.grammar, part.isLabelWritable = true) →
      ∃ offered, suggest definitions text = .ok offered) := by
  refine ⟨?_, ?_, fun writable => ⟨_, suggest_of_writable writable text⟩⟩
  · intro offered given s member
    rw [suggest_eq_ok given] at member
    obtain ⟨declared, own⟩ := mem_definitions_of_mem_suggestionsFor member
    exact ⟨declared, (Definition.extends_of_mem_suggestions own).2⟩
  · intro long
    apply suggest_eq_nil
    intro d declared fine
    obtain ⟨whole, writes, begins⟩ := Definition.exists_writes_of_viable fine
    exact Nat.not_lt_of_le begins.length_le (long d declared whole writes)

def status : Definition where
  tag := 0
  id := "status"
  name := "Status"
  grammar := [.literal ['s'], .options [['='], ['!', '=']], .digits 2 ['n']]
  description := none
  source := none
  factory := none
  grammar_ne_nil := by decide
  grammar_valid := by decide

theorem status_length {whole : Text} (writes : status.Writes 3 whole) : whole.length ≤ 5 := by
  obtain ⟨pieces, fits, rfl⟩ := writes
  cases fits with
  | cons letter fits =>
    cases fits with
    | cons sign fits =>
      cases fits with
      | cons digits fits =>
        cases fits
        have one := congrArg List.length letter
        have two := digits.1
        have signs : ∀ sign ∈ [['='], ['!', '=']], sign.length ≤ 2 := by decide
        have three := signs _ sign
        simp only [List.flatten_cons, List.flatten_nil, List.length_append, List.length_nil,
          List.length_cons] at one ⊢
        omega

theorem status_extended :
    (∃ s offered, suggest [status] ['s'] = .ok (s :: offered) ∧
      s.complete ['s'] = ['s', '='] ∧ s.Extends ['s']) ∧
    suggest [status] ['s', '!', '=', '1', '2', '3'] = .ok [] := by
  have given : suggest [status] ['s'] = .ok [⟨1, ['='], ['='], status, .stage, false⟩,
      ⟨1, ['!', '='], ['!', '='], status, .stage, false⟩] := rfl
  constructor
  · exact ⟨_, _, given, rfl,
      ((suggestions_extend [status] ['s']).1 _ given _ List.mem_cons_self).2⟩
  · apply (suggestions_extend [status] _).2.1
    intro d member whole writes
    rw [List.mem_singleton.mp member] at writes
    exact Nat.lt_succ_of_le (status_length writes)

end SearchBar
