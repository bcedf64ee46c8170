import SearchBar.Proofs.Suggesting

/-! How far the suggestions for a draft go, and what they cover.
From the part where a scan stops on, parts with a single value to go on with are passed, up to the
last part at most. What is offered there is either one template or the listed values of the part,
as they are declared; whatever values the draft is to go on in, one suggestion goes on in them. -/
namespace SearchBar

/-- Folding passes the parts that list a single value, but not the last part, and stops at `part`,
which sees `seen` of the text. -/
inductive Folds : List Part → Text → List Text → Part → List Part → Text → Prop where
  | stop {part : Part} {behind : List Part} {seen : Text} :
      (behind ≠ [] → ∀ value, part.goingOn seen ≠ [value]) →
        Folds (part :: behind) seen [] part behind seen
  | pass {first next part : Part} {others behind : List Part} {rest value seen : Text}
      {passed : List Text} :
      first.goingOn rest = [value] → Folds (next :: others) [] passed part behind seen →
        Folds (first :: next :: others) rest (value :: passed) part behind seen

variable {part first : Part} {parts others behind : List Part} {rest seen : Text}
  {passed : List Text}

theorem placeholder?_of_goingOn {value : Text} (only : part.goingOn rest = [value]) :
    part.placeholder? = none := by
  cases part with
  | literal word => rfl
  | options choices => rfl
  | number name => cases only
  | digits count name => cases only

theorem exists_folds (part : Part) (others : List Part) (rest : Text) :
    ∃ passed stop behind seen, Folds (part :: others) rest passed stop behind seen := by
  induction others generalizing part rest with
  | nil => exact ⟨[], part, [], rest, .stop fun more => False.elim (more rfl)⟩
  | cons next others ih =>
    by_cases single : ∃ value, part.goingOn rest = [value]
    · obtain ⟨value, only⟩ := single
      obtain ⟨passed, stop, behind, seen, folds⟩ := ih next []
      exact ⟨value :: passed, stop, behind, seen, .pass only folds⟩
    · exact ⟨[], part, next :: others, rest, .stop fun _ value only => single ⟨value, only⟩⟩

namespace Folds

theorem several (folds : Folds parts rest passed part behind seen) (more : behind ≠ [])
    (value : Text) : part.goingOn seen ≠ [value] := by
  induction folds with
  | stop last => exact last more value
  | pass _ _ ih => exact ih more

/-- The ways to go on are one template where the fold stops at a part with a label, and otherwise
the listed values of that part, each behind the values that are passed. -/
theorem candidates_eq (folds : Folds parts rest passed part behind seen)
    (valid : ∀ p ∈ parts, p.Valid) (waiting : ∀ p ∈ parts.head?, p.Awaits rest) :
    candidates parts rest =
      match part.placeholder? with
      | some label => [⟨passed.flatten, passed.flatten ++ label, .stage, true⟩]
      | none => (part.goingOn seen).map fun text =>
          ⟨passed.flatten ++ text, passed.flatten ++ text,
            if behind = [] then .full else .stage, false⟩ := by
  induction folds with
  | @stop part behind seen last =>
    rw [candidates, Part.completions_of_awaits (waiting part rfl)]
    cases named : part.placeholder? with
    | some label => rfl
    | none =>
      cases behind with
      | nil => rfl
      | cons next behind =>
        simp only [List.isEmpty_cons, Bool.false_eq_true, if_false, List.flatten_nil,
          List.nil_append, List.cons_ne_nil]
        split
        · rename_i text only
          exact False.elim (last (List.cons_ne_nil _ _) text only)
        · rfl
  | @pass first next part others behind rest value seen passed only folds ih =>
    obtain ⟨-, others_valid⟩ := List.forall_mem_cons.mp valid
    -- only the first part sees the text, so the next one waits for anything
    have rest_eq := ih others_valid fun p head => by
      cases head
      exact Part.awaits_nil (others_valid _ List.mem_cons_self)
    have named : first.placeholder? = none := placeholder?_of_goingOn only
    rw [candidates, Part.completions_of_awaits (waiting first rfl), named, only]
    simp only [List.isEmpty_cons, Bool.false_eq_true, if_false, rest_eq]
    cases part.placeholder? with
    | some label => simp [Candidate.behind]
    | none => simp [Candidate.behind, Function.comp_def]

theorem labelled?_eq (folds : Folds parts rest passed part behind seen)
    (valid : ∀ p ∈ parts, p.Valid) (waiting : ∀ p ∈ parts.head?, p.Awaits rest) :
    labelled? parts rest = part.placeholder?.map fun _ => part := by
  induction folds with
  | @stop part behind seen last =>
    rw [labelled?, Part.completions_of_awaits (waiting part rfl)]
    cases named : part.placeholder? with
    | some label => rfl
    | none =>
      simp only [Option.map_none]
      split
      · contradiction
      · rename_i only
        cases behind with
        | nil => rfl
        | cons next behind =>
          exact False.elim (last (List.cons_ne_nil _ _) _ (Offer.values.inj only))
      · rfl
  | @pass first next part others behind rest value seen passed only folds ih =>
    obtain ⟨-, others_valid⟩ := List.forall_mem_cons.mp valid
    have named : first.placeholder? = none := placeholder?_of_goingOn only
    rw [labelled?, Part.completions_of_awaits (waiting first rfl), named, only]
    refine ih others_valid fun p head => ?_
    cases head
    exact Part.awaits_nil (others_valid _ List.mem_cons_self)

end Folds

/-- What the suggestions of a definition say together where its scan ends in front of a part or
inside one. -/
structure Scan.Offers (s : Scan) (d : Definition) (text : Text) (offered : List Suggestion) :
    Prop where
  nonempty : offered ≠ []
  /-- Whatever values the draft is to go on in, a suggestion goes on in them. -/
  covers : ∀ value values, Fits (d.grammar.drop s.part) (value :: values) →
    text.drop s.position <+: value →
      ∃ o ∈ offered, o.complete text <+: text.take s.position ++ (value :: values).flatten
  uniform : (∃ o, offered = [o] ∧ o.template = true) ∨ ∀ o ∈ offered, o.template = false
  distinct : (offered.map (·.value)).Nodup
  /-- One suggestion alone, unless it is a template, reaches the end. -/
  furthest : ∀ o, offered = [o] → o.template = false → o.reach = .full
  /-- The suggestions stop at one part, and list its values as they are declared. -/
  ordered : ∃ passed part behind seen,
    Folds (d.grammar.drop s.part) (text.drop s.position) passed part behind seen ∧
    (part.placeholder? ≠ none →
      ∃ o, offered = [o] ∧ o.template = true ∧ o.value = passed.flatten) ∧
    (part.placeholder? = none →
      offered.map (·.value) = (part.goingOn seen).map (passed.flatten ++ ·) ∧
        ∀ o ∈ offered, o.template = false ∧ (o.reach = .full ↔ behind = []))

variable {d : Definition} {before : List Part} {text left : Text} {pieces : List Text}

theorem Definition.exists_stop_of_scan
    (typed : (d.scan text).state = .resolved ∨ (d.scan text).state = .begun) :
    ∃ before part others pieces left, Stop d.grammar text before (part :: others) pieces left ∧
      part.Awaits left ∧ d.grammar.drop (d.scan text).part = part :: others ∧
      text.take (d.scan text).position = pieces.flatten ∧
      text.drop (d.scan text).position = left := by
  rcases d.scan_cases text with ⟨pieces, -, scanned⟩ | ⟨pieces, left, -, -, scanned⟩ |
    ⟨before, part, others, pieces, left, stop, ends⟩
  case inr.inr =>
    obtain ⟨-, known⟩ := stop.parts_valid d.grammar_valid
    have awaits : part.Awaits left := by
      rcases ends with ⟨rfl, -⟩ | ⟨more, leads, -⟩ | ⟨-, -, scanned⟩
      · exact Part.awaits_nil (known part (by simp))
      · exact ⟨stop.stuck more part rfl, leads⟩
      · rw [scanned] at typed
        rcases typed with impossible | impossible <;> cases impossible
    have place : (d.scan text).part = before.length ∧
        (d.scan text).position = pieces.flatten.length := by
      rcases ends with ⟨-, scanned⟩ | ⟨-, -, scanned⟩ | ⟨-, -, scanned⟩ <;>
        exact scanned ▸ ⟨rfl, rfl⟩
    refine ⟨before, part, others, pieces, left, stop, awaits, ?_, ?_, ?_⟩
    · rw [place.1, stop.parts_eq, List.drop_left]
    · rw [place.2, stop.text_eq, List.take_left]
    · rw [place.2, stop.text_eq, List.drop_left]
  all_goals
    rw [scanned] at typed
    rcases typed with impossible | impossible <;> cases impossible

theorem Definition.suggest_eq_ok {offered : List Suggestion}
    (given : d.suggest text = .ok offered) : offered = d.suggestions text := by
  unfold suggest at given
  split at given
  · exact (Except.ok.inj given).symm
  · cases given

theorem Definition.suggest_eq_error_iff {fault : Part.LabelFault} :
    d.suggest text = .error fault ↔
      fault = .longCount ∧ d.labelsWritable text (d.scan text) = false := by
  unfold suggest
  split
  · rename_i writable
    simp [writable]
  · rename_i silent
    simp [silent, eq_comm]

namespace Definition

theorem exists_suggestion_of_fits {part : Part} {others : List Part} {value : Text}
    {values : List Text} (stop : Stop d.grammar text before (part :: others) pieces left)
    (awaits : part.Awaits left) (fits : Fits (part :: others) (value :: values))
    (begins : left <+: value) :
    ∃ o ∈ d.suggestions text,
      o.complete text <+: pieces.flatten ++ (value :: values).flatten := by
  obtain ⟨-, known⟩ := stop.parts_valid d.grammar_valid
  cases fits with
  | cons allowed tail =>
    obtain ⟨c, candidate, added, after, more, remaining, covers, values_eq, -⟩ :=
      exists_candidate_of_fits known awaits allowed begins tail
    rw [suggestions_of_stop stop]
    refine ⟨_, List.mem_map_of_mem candidate, ?_⟩
    rw [Suggestion.complete_ofCandidate stop, values_eq, covers.value_eq, List.flatten_append]
    exact (List.prefix_append_right_inj _).mpr (List.prefix_append _ _)

theorem offers_of_scan
    (typed : (d.scan text).state = .resolved ∨ (d.scan text).state = .begun) :
    (d.scan text).Offers d text (d.suggestions text) := by
  obtain ⟨before, part, others, pieces, left, stop, awaits, parts_eq, front, rest⟩ :=
    exists_stop_of_scan typed
  obtain ⟨-, known⟩ := stop.parts_valid d.grammar_valid
  obtain ⟨passed, last, behind, seen, folds⟩ := exists_folds part others left
  have folded := folds.candidates_eq known fun p head => by
    cases head
    exact awaits
  have made := suggestions_of_stop stop
  refine ⟨?nonempty, ?covers, ?uniform, ?distinct, ?furthest, passed, last, behind, seen,
    by rwa [parts_eq, rest], ?labelled, ?listed⟩
  case nonempty =>
    rw [made]
    simpa using candidates_ne_nil known awaits.leads
  case covers =>
    intro value values fits begins
    rw [parts_eq] at fits
    rw [rest] at begins
    rw [front]
    exact exists_suggestion_of_fits stop awaits fits begins
  case distinct =>
    rw [made, List.map_map]
    exact List.pairwise_map.mpr (candidates_distinct known)
  case labelled =>
    intro labelled
    obtain ⟨label, named⟩ := Option.ne_none_iff_exists'.mp labelled
    rw [made, folded, named]
    exact ⟨_, rfl, rfl, rfl⟩
  case listed =>
    intro named
    rw [made, folded, named]
    simp [Suggestion.ofCandidate, Function.comp_def]
  case uniform =>
    rw [made, folded]
    cases last.placeholder? with
    | some label => exact .inl ⟨_, rfl, rfl⟩
    | none => simp [Suggestion.ofCandidate]
  case furthest =>
    intro o only real
    rw [made, folded] at only
    cases named : last.placeholder? with
    | some label =>
      rw [named] at only
      cases only
      cases real
    | none =>
      rw [named, List.map_map, List.map_eq_singleton_iff] at only
      obtain ⟨value, single, rfl⟩ := only
      by_cases further : behind = []
      · simp [further, Suggestion.ofCandidate]
      · exact False.elim (folds.several further value single)

theorem labelsWritable_eq_false_iff
    (typed : (d.scan text).state = .resolved ∨ (d.scan text).state = .begun) :
    d.labelsWritable text (d.scan text) = false ↔
      ∃ passed part behind seen, Folds (d.grammar.drop (d.scan text).part)
        (text.drop (d.scan text).position) passed part behind seen ∧
          part.isLabelWritable = false := by
  obtain ⟨before, part, others, pieces, left, stop, awaits, parts_eq, -, rest⟩ :=
    exists_stop_of_scan typed
  obtain ⟨-, known⟩ := stop.parts_valid d.grammar_valid
  have waiting : ∀ p ∈ (part :: others).head?, p.Awaits left := by
    intro p head
    cases head
    exact awaits
  have written : d.labelsWritable text (d.scan text) =
      (labelled? (part :: others) left).all Part.isLabelWritable := by
    rcases typed with state | state <;> simp only [labelsWritable, state, parts_eq, rest]
  rw [written, parts_eq, rest]
  constructor
  · intro silent
    obtain ⟨passed, last, behind, seen, folds⟩ := exists_folds part others left
    rw [folds.labelled?_eq known waiting] at silent
    cases named : last.placeholder? with
    | some label => exact ⟨passed, last, behind, seen, folds, by simpa [named] using silent⟩
    | none => simp [named] at silent
  · rintro ⟨passed, last, behind, seen, folds, silent⟩
    cases named : last.placeholder? with
    | some label => simp [folds.labelled?_eq known waiting, named, silent]
    | none => cases silent.symm.trans (Part.isLabelWritable_of_listed named)

end Definition

/-- Where a scan ends in front of a part or inside one, the suggestions cover every way to go on
and are folded as far as can be. They cannot be made exactly if the fold stops at a part whose
count of digits is too long to be written. -/
theorem suggestions_cover {d : Definition} {text : Text}
    (typed : (d.scan text).state = .resolved ∨ (d.scan text).state = .begun) :
    (∀ offered, d.suggest text = .ok offered → (d.scan text).Offers d text offered) ∧
    (∀ fault, d.suggest text = .error fault ↔ fault = .longCount ∧
      ∃ passed part behind seen, Folds (d.grammar.drop (d.scan text).part)
        (text.drop (d.scan text).position) passed part behind seen ∧
          part.isLabelWritable = false) := by
  constructor
  · intro offered given
    rw [Definition.suggest_eq_ok given]
    exact Definition.offers_of_scan typed
  · intro fault
    rw [Definition.suggest_eq_error_iff, Definition.labelsWritable_eq_false_iff typed]

def weight : Definition where
  tag := 0
  id := "weight"
  name := "Weight"
  grammar :=
    [.literal ['w', 'e', 'i', 'g', 'h', 't'], .options [['<'], ['>'], ['>', '=']], .number ['n']]
  description := none
  source := none
  factory := none
  grammar_ne_nil := by decide
  grammar_valid := by decide

theorem weight_covered : (weight.scan ['w', 'e']).state = .begun ∧
    ∃ offered, weight.suggest ['w', 'e'] = .ok offered ∧
      (weight.scan ['w', 'e']).Offers weight ['w', 'e'] offered ∧ offered.length = 3 := by
  have begun : (weight.scan ['w', 'e']).state = .begun := rfl
  exact ⟨begun, _, rfl, (suggestions_cover (.inr begun)).1 _ rfl, rfl⟩

def pin (count : Nat) (positive : 0 < count) : Definition where
  tag := 0
  id := "pin"
  name := "Pin"
  grammar := [.digits count ['n']]
  description := none
  source := none
  factory := none
  grammar_ne_nil := List.cons_ne_nil _ _
  grammar_valid := by simp [Part.Valid, positive]

theorem suggest_pin {count : Nat} (positive : 0 < count) (long : Text.isWritable count = false) :
    (pin count positive).suggest [] = .error .longCount := by
  have named : labelled? (pin count positive).grammar [] = some (.digits count ['n']) :=
    labelled?_digits positive ['n'] []
  have scanned : (pin count positive).scan [] = ⟨.resolved, 0, 0⟩ := rfl
  refine Definition.suggest_eq_error_iff.mpr ⟨rfl, ?_⟩
  simp only [scanned, Definition.labelsWritable, List.drop_zero, named, Option.all_some,
    Part.isLabelWritable, long]

/-- There is something to type in front of digits whose count cannot be written, but nothing is
suggested. -/
theorem pin_unsuggested : ((pin _ unwritable_pos).scan []).state = .resolved ∧
    (pin _ unwritable_pos).suggest [] = .error .longCount :=
  ⟨rfl, suggest_pin unwritable_pos Text.isWritable_unwritable⟩

end SearchBar
