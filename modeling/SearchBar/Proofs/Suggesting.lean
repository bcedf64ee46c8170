import SearchBar.Completing
import SearchBar.Proofs.Scanning
import SearchBar.Proofs.Folding

namespace SearchBar

theorem Sequence.bound_natCast (length n : Nat) :
    Sequence.bound length (n : Int) = min n length := by
  have forward : ¬ (n : Int) < 0 := by omega
  rw [bound, if_neg forward, Int.toNat_natCast]

theorem Sequence.before_natCast {α : Type} (xs : List α) (n : Nat) :
    Sequence.before xs (n : Int) = xs.take n := by
  rw [before, bound_natCast, ← List.take_eq_take_min]

theorem Sequence.onward_natCast {α : Type} (xs : List α) (n : Nat) :
    Sequence.onward xs (n : Int) = xs.drop n := by
  rw [onward, bound_natCast]
  rcases Nat.le_total n xs.length with within | past
  · rw [Nat.min_eq_left within]
  · rw [Nat.min_eq_right past, List.drop_length, List.drop_of_length_le past]

/-- The last piece of a draft that every part has taken a piece of. -/
def Suggestion.closing (d : Definition) (text : Text) (pieces : List Text) : Suggestion :=
  ⟨lastStart 0 0 pieces, text.drop (lastStart 0 0 pieces), text.drop (lastStart 0 0 pieces), d,
    .full, false⟩

theorem Suggestion.complete_closing (d : Definition) (text : Text) (pieces : List Text) :
    (closing d text pieces).complete text = text := by
  simp only [closing, complete, Sequence.before_natCast, List.take_append_drop]

namespace Definition

variable {d : Definition} {before others : List Part} {part : Part} {pieces : List Text}
  {text left : Text}

theorem suggestions_of_done (stop : Stop d.grammar text before [] pieces []) :
    d.suggestions text = [.closing d text pieces] := by
  rw [suggestions, scan_of_done stop]
  rfl

theorem suggestions_of_overrun (stop : Stop d.grammar text before [] pieces left)
    (more : left ≠ []) : d.suggestions text = [] := by
  rw [suggestions, scan_of_overrun stop more]
  rfl

theorem suggestions_of_stop (stop : Stop d.grammar text before (part :: others) pieces left) :
    d.suggestions text = (candidates (part :: others) left).map
      (Suggestion.ofCandidate d pieces.flatten.length) := by
  have valid : part.Valid := (stop.parts_valid d.grammar_valid).2 part (by simp)
  have parts_eq : d.grammar.drop before.length = part :: others := by
    rw [stop.parts_eq, List.drop_left]
  have rest_eq : text.drop pieces.flatten.length = left := by
    rw [stop.text_eq, List.drop_left]
  by_cases more : left = []
  · subst more
    simp only [suggestions, scan_of_boundary stop, suggestionsAt, parts_eq, rest_eq]
  · obtain ⟨begun, unmatched⟩ := scan_of_inside stop more
    by_cases leads : part.Leads left
    · simp only [suggestions, begun leads, suggestionsAt, parts_eq, rest_eq]
    · simp only [suggestions, unmatched leads, suggestionsAt, candidates_eq_nil valid leads,
        List.map_nil]

theorem suggestions_eq_nil_iff (d : Definition) (text : Text) :
    d.suggestions text = [] ↔ ¬ Viable d.grammar text := by
  rw [← isLost_iff_not_viable d.grammar_valid 0 0 0]
  obtain ⟨before, after, pieces, left, stop⟩ := exists_stop d.grammar_valid text
  rw [stop.isLost_iff d.grammar_valid]
  cases after with
  | nil =>
    by_cases more : left = []
    · subst more
      simp [suggestions_of_done stop]
    · simp [suggestions_of_overrun stop more, more]
  | cons part others =>
    obtain ⟨-, known⟩ := stop.parts_valid d.grammar_valid
    rw [suggestions_of_stop stop, List.map_eq_nil_iff]
    by_cases leads : part.Leads left
    · simp [candidates_ne_nil known leads, leads]
    · have more : left ≠ [] := fun empty => leads (empty ▸ Part.leads_nil (known part (by simp)))
      simp [candidates_eq_nil (known part (by simp)) leads, leads, more]

theorem suggestions_distinct (d : Definition) (text : Text) :
    (d.suggestions text).Pairwise fun a b => a.same b = false := by
  obtain ⟨before, after, pieces, left, stop⟩ := exists_stop d.grammar_valid text
  cases after with
  | nil =>
    by_cases more : left = []
    · subst more
      rw [suggestions_of_done stop]
      exact List.pairwise_singleton _ _
    · rw [suggestions_of_overrun stop more]
      exact .nil
  | cons part others =>
    obtain ⟨-, known⟩ := stop.parts_valid d.grammar_valid
    rw [suggestions_of_stop stop]
    apply List.pairwise_map.mpr
    apply (candidates_distinct known).imp
    intro a b apart
    simp [Suggestion.same, Suggestion.ofCandidate, apart]

end Definition

/-- What a suggestion promises about the draft: the parts it covers, those behind them, and
the pieces that the extended draft is written in. -/
structure Suggestion.Covers (text : Text) (s : Suggestion) (before after : List Part)
    (pieces : List Text) : Prop where
  grammar_eq : s.definition.grammar = before ++ after
  fits : Fits before pieces
  complete_eq : s.complete text = pieces.flatten
  kind : (s.template = true ∧ s.reach = .stage) ∨
    (s.template = false ∧ text <+: s.complete text ∧ before ≠ [] ∧ (s.reach = .full ↔ after = []))

theorem Suggestion.complete_ofCandidate {d : Definition} {text left : Text}
    {before after : List Part} {pieces : List Text}
    (stop : Stop d.grammar text before after pieces left) (c : Candidate) :
    (ofCandidate d pieces.flatten.length c).complete text = pieces.flatten ++ c.value := by
  simp only [complete, ofCandidate, Sequence.before_natCast]
  rw [stop.text_eq, List.take_left]

theorem Suggestion.covers_of_candidate {d : Definition} {text left : Text} {c : Candidate}
    {before after added behind : List Part} {pieces more : List Text}
    (stop : Stop d.grammar text before after pieces left)
    (covers : c.Covers after left added behind more) :
    (Suggestion.ofCandidate d pieces.flatten.length c).Covers text (before ++ added) behind
      (pieces ++ more) := by
  have complete_eq := complete_ofCandidate stop c
  refine ⟨?_, List.rel_append stop.reads.fits covers.fits, ?_, ?_⟩
  · show d.grammar = _
    rw [stop.parts_eq, covers.parts_eq, List.append_assoc]
  · rw [complete_eq, covers.value_eq, List.flatten_append]
  · rw [complete_eq]
    rcases covers.kind with ⟨template, stage, -⟩ | ⟨real, -, begins, nonempty, last⟩
    · exact .inl ⟨template, stage⟩
    · refine .inr ⟨real, ?_, by simp [nonempty], last⟩
      rw [stop.text_eq]
      exact (List.prefix_append_right_inj _).mpr begins

theorem Definition.mem_suggestions_cases {d : Definition} {text : Text} {s : Suggestion}
    (member : s ∈ d.suggestions text) :
    (∃ pieces, Reads d.grammar text pieces [] ∧ s = .closing d text pieces) ∨
    ∃ before part others pieces left c added behind more,
      Stop d.grammar text before (part :: others) pieces left ∧
      c.Covers (part :: others) left added behind more ∧
      s = .ofCandidate d pieces.flatten.length c := by
  obtain ⟨before, after, pieces, left, stop⟩ := exists_stop d.grammar_valid text
  cases after with
  | nil =>
    have parts_eq : d.grammar = before := by rw [stop.parts_eq, List.append_nil]
    by_cases more : left = []
    · subst more
      rw [suggestions_of_done stop, List.mem_singleton] at member
      exact .inl ⟨pieces, parts_eq ▸ stop.reads, member⟩
    · rw [suggestions_of_overrun stop more] at member
      cases member
  | cons part others =>
    rw [suggestions_of_stop stop] at member
    obtain ⟨c, candidate, rfl⟩ := List.mem_map.mp member
    obtain ⟨-, known⟩ := stop.parts_valid d.grammar_valid
    obtain ⟨added, behind, more, covers⟩ := candidates_cover known candidate
    exact .inr ⟨before, part, others, pieces, left, c, added, behind, more, stop, covers, rfl⟩

theorem Definition.covers_of_mem_suggestions {d : Definition} {text : Text} {s : Suggestion}
    (member : s ∈ d.suggestions text) :
    s.definition = d ∧ ∃ before after pieces, s.Covers text before after pieces := by
  rcases mem_suggestions_cases member with ⟨pieces, reads, rfl⟩ |
    ⟨before, part, others, pieces, left, c, added, behind, more, stop, covers, rfl⟩
  · refine ⟨rfl, d.grammar, [], pieces, ⟨?_, reads.fits, ?_, ?_⟩⟩
    · exact (List.append_nil _).symm
    · rw [Suggestion.complete_closing, ← reads.flatten_append, List.append_nil]
    · rw [Suggestion.complete_closing]
      exact .inr ⟨rfl, List.prefix_refl _, d.grammar_ne_nil, iff_of_true rfl rfl⟩
  · exact ⟨rfl, _, _, _, Suggestion.covers_of_candidate stop covers⟩

theorem Suggestion.Covers.fits_of_full {text : Text} {s : Suggestion} {before after : List Part}
    {pieces : List Text} (covers : s.Covers text before after pieces) (full : s.reach = .full) :
    s.template = false ∧ Fits s.definition.grammar pieces := by
  rcases covers.kind with ⟨-, stage⟩ | ⟨real, -, -, last⟩
  · rw [full] at stage
    cases stage
  · have grammar_eq := covers.grammar_eq
    rw [last.mp full, List.append_nil] at grammar_eq
    exact ⟨real, grammar_eq ▸ covers.fits⟩

section Several

variable {definitions : List Definition} {text : Text} {s : Suggestion}

theorem prefix_foldl_addNew (found offered : List Suggestion) :
    found <+: offered.foldl addNew found := by
  induction offered generalizing found with
  | nil => exact List.prefix_refl _
  | cons s offered ih =>
    refine List.IsPrefix.trans ?_ (ih (addNew found s))
    unfold addNew
    split
    · exact List.prefix_refl _
    · exact List.prefix_append _ _

theorem foldl_addNew_subset (found offered : List Suggestion) :
    offered.foldl addNew found ⊆ found ++ offered := by
  induction offered generalizing found with
  | nil => simp
  | cons s offered ih =>
    intro t member
    have earlier : addNew found s ⊆ found ++ [s] := by
      unfold addNew
      split <;> simp
    rcases List.mem_append.mp (ih (addNew found s) member) with kept | later
    · have either := earlier kept
      simp only [List.mem_append, List.mem_singleton] at either
      rcases either with old | rfl <;> simp [*]
    · simp [later]

/-- What comes again is not the first of its kind, if a kind is told by the fields alone. -/
theorem find?_foldl_addNew {wanted : Suggestion → Bool}
    (alike : ∀ a b : Suggestion, a.same b = true → wanted a = wanted b)
    (found offered : List Suggestion) :
    (offered.foldl addNew found).find? wanted = (found ++ offered).find? wanted := by
  induction offered generalizing found with
  | nil => simp
  | cons s offered ih =>
    rw [List.foldl_cons, ih, addNew]
    split
    · rename_i again
      obtain ⟨earlier, among, same⟩ := List.any_eq_true.mp again
      rw [List.find?_append, List.find?_append, List.find?_cons]
      cases hit : wanted s with
      | false => rfl
      | true =>
        have first : (found.find? wanted).isSome = true :=
          List.find?_isSome.mpr ⟨earlier, among, (alike earlier s same).trans hit⟩
        obtain ⟨t, first⟩ := Option.isSome_iff_exists.mp first
        simp [first]
    · rw [List.append_assoc]
      rfl

theorem foldl_addNew_eq_nil_iff (offered : List Suggestion) :
    offered.foldl addNew [] = [] ↔ offered = [] := by
  cases offered with
  | nil => simp
  | cons s offered =>
    have kept := prefix_foldl_addNew [s] offered
    constructor
    · intro empty
      have first : (s :: offered).foldl addNew [] = offered.foldl addNew [s] := rfl
      rw [← first, empty] at kept
      cases List.prefix_nil.mp kept
    · intro impossible; cases impossible

theorem foldl_addNew_of_distinct {found offered : List Suggestion}
    (distinct : (found ++ offered).Pairwise fun a b => a.same b = false) :
    offered.foldl addNew found = found ++ offered := by
  induction offered generalizing found with
  | nil => simp
  | cons s offered ih =>
    have fresh : found.any (·.same s) = false := by
      apply List.any_eq_false.mpr
      intro earlier among
      simp [(List.pairwise_append.mp distinct).2.2 earlier among s (by simp)]
    have later : ((found ++ [s]) ++ offered).Pairwise fun a b => a.same b = false := by
      rwa [List.append_assoc]
    rw [List.foldl_cons, addNew, fresh, if_neg Bool.false_ne_true, ih later, List.append_assoc]
    rfl

/-- The definitions whose suggestions count: those that end a part where the text ends, if there
are any. -/
def contributing (definitions : List Definition) (text : Text) : List Definition :=
  if definitions.any fun d => (d.scan text).isResolved then
    definitions.filter fun d => (d.scan text).isResolved
  else definitions

theorem contributors_eq (definitions : List Definition) (text : Text) :
    contributors definitions text =
      (contributing definitions text).map fun d => (d, d.scan text) := by
  simp only [contributors, contributing, List.any_map, Function.comp_def]
  split
  · rw [List.filter_map]
    rfl
  · rfl

theorem suggestionsFor_eq (definitions : List Definition) (text : Text) :
    suggestionsFor definitions text =
      ((contributing definitions text).flatMap (·.suggestions text)).foldl addNew [] := by
  rw [suggestionsFor, contributors_eq, List.flatMap_map]
  rfl

theorem mem_contributors {d : Definition} {scan : Scan}
    (member : (d, scan) ∈ contributors definitions text) :
    d ∈ definitions ∧ scan = d.scan text := by
  rw [contributors_eq] at member
  obtain ⟨e, among, same⟩ := List.mem_map.mp member
  cases same
  unfold contributing at among
  split at among
  · exact ⟨(List.mem_filter.mp among).1, rfl⟩
  · exact ⟨among, rfl⟩

theorem mem_definitions_of_mem_suggestionsFor (member : s ∈ suggestionsFor definitions text) :
    s.definition ∈ definitions ∧ s ∈ s.definition.suggestions text := by
  have offered := foldl_addNew_subset [] _ member
  rw [List.nil_append, List.mem_flatMap] at offered
  obtain ⟨⟨d, scan⟩, contributes, made⟩ := offered
  obtain ⟨declared, rfl⟩ := mem_contributors contributes
  have own : s.definition = d := (Definition.covers_of_mem_suggestions made).1
  rw [own]
  exact ⟨declared, made⟩

theorem suggest_eq_ok {offered : List Suggestion} (given : suggest definitions text = .ok offered) :
    offered = suggestionsFor definitions text := by
  unfold suggest at given
  split at given
  · cases given
    rfl
  · cases given

theorem contributors_singleton (d : Definition) (text : Text) :
    contributors [d] text = [(d, d.scan text)] := by
  cases resolved : (d.scan text).isResolved <;> simp [contributors, resolved]

theorem suggest_singleton (d : Definition) (text : Text) :
    suggest [d] text =
      if d.labelsWritable text (d.scan text) then .ok ((d.suggestions text).foldl addNew [])
      else .error .longCount := by
  simp [suggest, suggestionsFor, contributors_singleton, Definition.suggestions]

theorem suggest_singleton_eq (d : Definition) (text : Text) :
    suggest [d] text = d.suggest text := by
  have all : (d.suggestions text).foldl addNew [] = d.suggestions text :=
    foldl_addNew_of_distinct (d.suggestions_distinct text)
  rw [suggest_singleton, all]
  rfl

end Several

theorem unwritable_pos : 0 < Nat.pow 10 Text.longestInteger := by
  rw [Nat.pow_eq]
  exact Nat.pow_pos (by decide)

theorem Text.isWritable_unwritable :
    isWritable (Nat.pow 10 longestInteger : Nat) = false := by
  simp only [isWritable, Int.natAbs_natCast, Nat.lt_irrefl, decide_false]

theorem Text.isWritable_of_le {m n : Nat} (le : m ≤ n) (writable : isWritable n = true) :
    isWritable m = true := by
  simp only [isWritable, Int.natAbs_natCast, decide_eq_true_eq] at writable ⊢
  exact Nat.lt_of_le_of_lt le writable

theorem Part.isLabelWritable_of_allows {part : Part} {value : Text} (allowed : part.Allows value)
    (writable : Text.isWritable value.length = true) : part.isLabelWritable = true := by
  cases part with
  | literal word => rfl
  | options choices => rfl
  | number name => rfl
  | digits count name =>
    rw [allowed.1] at writable
    exact writable

theorem Definition.labelsWritable_of_forall {d : Definition}
    (writable : ∀ part ∈ d.grammar, part.isLabelWritable = true) (text : Text) (scan : Scan) :
    d.labelsWritable text scan = true := by
  have named : ∀ n rest, (labelled? (d.grammar.drop n) rest).all Part.isLabelWritable = true := by
    intro n rest
    cases shown : labelled? (d.grammar.drop n) rest with
    | none => rfl
    | some part => exact writable part (List.mem_of_mem_drop (mem_of_labelled? shown))
  unfold labelsWritable
  split
  · exact named _ _
  · exact named _ _
  · rfl
  · rfl
  · rfl

theorem suggest_of_writable {definitions : List Definition}
    (writable : ∀ d ∈ definitions, ∀ part ∈ d.grammar, part.isLabelWritable = true)
    (text : Text) : suggest definitions text = .ok (suggestionsFor definitions text) := by
  unfold suggest
  rw [if_pos]
  apply List.all_eq_true.mpr
  rintro ⟨d, scan⟩ contributes
  exact d.labelsWritable_of_forall (writable d (mem_contributors contributes).1) text scan

theorem Definition.labelsWritable_of_isLost {d : Definition} {text : Text} {scan : Scan}
    (lost : scan.state.IsLost) : d.labelsWritable text scan = true := by
  rcases lost with unmatched | overmatched
  · simp [labelsWritable, unmatched]
  · simp [labelsWritable, overmatched]

end SearchBar
