import SearchBar.Proofs.Applying
import SearchBar.Proofs.Finishing
import SearchBar.Proofs.Separation
import Mathlib.Data.List.Chain

/-! Filters made by picking alone.
Nothing is typed: the draft is empty at first, and each pick applies one of the suggestions for
it. Over a definition of texts and options whose parts are kept apart, every pick ends a further
part, so the end is reached after as many picks as there are parts at most, and the texts that
filters are built from are exactly those that the definition accepts. -/
namespace SearchBar

def Part.IsListed : Part → Prop
  | literal _ | options _ => True
  | number _ | digits _ _ => False

instance : DecidablePred Part.IsListed
  | .literal _ | .options _ => isTrue trivial
  | .number _ | .digits _ _ => isFalse id

namespace Definition

/-- The filters after a number of picks of which none reaches the end. -/
inductive Picked (d : Definition) : Nat → List Filter → Prop where
  | start : Picked d 0 [.draft []]
  | pick {n : Nat} {draft : Text} {others after : List Filter} {offered : List Suggestion}
      {s : Suggestion} :
      Picked d n (.draft draft :: others) → SearchBar.suggest [d] draft = .ok offered →
        s ∈ offered → s.reach = .stage → (apply (.draft draft :: others) s).filters? = .ok after →
          Picked d (n + 1) after

/-- The texts that a filter is to be built from when the last of a number of picks, and no
other, reaches the end. -/
inductive Finished (d : Definition) : Nat → Text → Prop where
  | pick {n : Nat} {draft : Text} {others : List Filter} {offered : List Suggestion}
      {s : Suggestion} :
      Picked d n (.draft draft :: others) → SearchBar.suggest [d] draft = .ok offered →
        s ∈ offered → s.reach = .full → Finished d (n + 1) (s.complete draft)

variable {d : Definition} {n : Nat} {draft : Text} {filters : List Filter}
  {before after others : List Part} {part : Part} {pieces : List Text} {s : Suggestion}

theorem stop_of_fits (separated : d.Separated) (grammar_eq : d.grammar = before ++ after)
    (fits : Fits before pieces) : Stop d.grammar pieces.flatten before after pieces [] := by
  have valid := d.grammar_valid
  have apart : d.grammar.IsChain Part.Apart := separated
  rw [grammar_eq] at valid apart
  have settled := settled_of_separated (List.forall_mem_append.mp valid).1 apart.left_of_append fits
  exact ⟨grammar_eq, reads_of_settled fits settled, fun impossible => False.elim (impossible rfl)⟩

/-- The draft ends in front of a part, and behind `n` others at least. -/
def Stands (d : Definition) (n : Nat) (draft : Text) : Prop :=
  ∃ before part others pieces, Stop d.grammar draft before (part :: others) pieces [] ∧
    n ≤ before.length

theorem stands_nil (d : Definition) : d.Stands 0 [] := by
  obtain ⟨part, others, grammar_eq⟩ := List.exists_cons_of_ne_nil d.grammar_ne_nil
  exact ⟨[], part, others, [],
    ⟨grammar_eq, .done [], fun impossible => False.elim (impossible rfl)⟩,
    Nat.zero_le _⟩

theorem Stands.lt (stands : d.Stands n draft) : n < d.grammar.length := by
  obtain ⟨before, part, others, pieces, stop, covered⟩ := stands
  rw [stop.parts_eq, List.length_append, List.length_cons]
  omega

theorem Stands.suggestions_ne_nil (stands : d.Stands n draft) : d.suggestions draft ≠ [] := by
  obtain ⟨before, part, others, pieces, stop, -⟩ := stands
  intro none
  exact (d.suggestions_eq_nil_iff draft).mp none ⟨before, _, pieces, [], stop, .inl rfl⟩

section Listed

variable (listed : ∀ part ∈ d.grammar, part.IsListed)

include listed

theorem suggest_of_listed (draft : Text) :
    SearchBar.suggest [d] draft = .ok (d.suggestions draft) := by
  have writable : ∀ part ∈ d.grammar, part.isLabelWritable = true := by
    intro part member
    have lists := listed part member
    cases part with
    | literal word => rfl
    | options choices => rfl
    | number name => exact False.elim lists
    | digits count name => exact False.elim lists
  rw [suggest_singleton_eq, suggest, d.labelsWritable_of_forall writable, if_pos rfl]

theorem real_of_covers {left : Text} {c : Candidate} {added behind : List Part}
    {more : List Text} (parts_eq : d.grammar = before ++ after)
    (covers : c.Covers after left added behind more) : c.template = false := by
  rcases covers.kind with ⟨-, -, named, head, label, shows, -⟩ | ⟨real, -⟩
  · have member : named ∈ d.grammar := by
      rw [parts_eq, covers.parts_eq]
      simp [List.mem_of_mem_head? head]
    have lists := listed named member
    cases named with
    | literal word => cases shows
    | options choices => cases shows
    | number name => exact False.elim lists
    | digits count name => exact False.elim lists
  · exact real

theorem Stands.step (separated : d.Separated) (stands : d.Stands n draft)
    (member : s ∈ d.suggestions draft) (stage : s.reach = .stage) :
    s.template = false ∧ d.Stands (n + 1) (s.complete draft) := by
  obtain ⟨before, part, others, pieces, stop, covered⟩ := stands
  obtain ⟨-, known⟩ := stop.parts_valid d.grammar_valid
  rw [suggestions_of_stop stop] at member
  obtain ⟨c, candidate, rfl⟩ := List.mem_map.mp member
  obtain ⟨added, behind, more, covers⟩ := candidates_cover known candidate
  have whole := Suggestion.covers_of_candidate stop covers
  have real := real_of_covers listed stop.parts_eq covers
  refine ⟨real, ?_⟩
  rcases covers.kind with ⟨template, -⟩ | ⟨-, -, -, nonempty, last⟩
  · rw [real] at template
    cases template
  · have further : behind ≠ [] := by
      intro empty
      have full : c.reach = .full := last.mpr empty
      rw [show c.reach = .stage from stage] at full
      cases full
    obtain ⟨next, behind, rfl⟩ := List.exists_cons_of_ne_nil further
    rw [whole.complete_eq]
    refine ⟨_, _, _, _, stop_of_fits separated whole.grammar_eq whole.fits, ?_⟩
    have gained := List.length_pos_iff.mpr nonempty
    rw [List.length_append]
    omega

theorem Picked.stands (separated : d.Separated) (picked : d.Picked n filters) :
    ∃ draft, filters = [.draft draft] ∧ d.Stands n draft := by
  induction picked with
  | start => exact ⟨[], rfl, d.stands_nil⟩
  | pick _ given member stage applied ih =>
    obtain ⟨draft, same, stands⟩ := ih
    obtain ⟨rfl, rfl⟩ : _ = draft ∧ _ = [] := by simpa using same
    rw [suggest_of_listed listed] at given
    cases given
    obtain ⟨real, further⟩ := stands.step listed separated member stage
    rw [filters?_apply_stage real stage] at applied
    exact ⟨_, (Except.ok.inj applied).symm, further⟩

/-- From wherever picks have led to, the remaining values can be picked too. -/
theorem finished_of_fits (separated : d.Separated) {values : List Text}
    (picked : d.Picked n [.draft pieces.flatten])
    (grammar_eq : d.grammar = before ++ part :: others)
    (taken : Fits before pieces) (fits : Fits (part :: others) values) :
    ∃ m, d.Finished m (pieces ++ values).flatten := by
  -- a pick may end several parts at once, so the parts behind are counted, not taken one by one
  induction size : others.length using Nat.strong_induction_on
    generalizing n before part others pieces values with
  | _ _ shorter =>
    have stop := stop_of_fits separated grammar_eq taken
    obtain ⟨-, known⟩ := stop.parts_valid d.grammar_valid
    obtain ⟨c, made, added, after, more, behind, covers, values_eq, remaining⟩ :
        ∃ c ∈ candidates (part :: others) [], ∃ added after more behind,
          c.Covers (part :: others) [] added after more ∧ values = more ++ behind ∧
            Fits after behind := by
      cases fits with
      | cons allowed tail =>
        exact exists_candidate_of_fits known (Part.awaits_nil (known part (by simp))) allowed
          List.nil_prefix tail
    have offered :
        Suggestion.ofCandidate d pieces.flatten.length c ∈ d.suggestions pieces.flatten := by
      rw [suggestions_of_stop stop]
      exact List.mem_map_of_mem made
    have whole := Suggestion.covers_of_candidate stop covers
    have real := real_of_covers listed grammar_eq covers
    rcases covers.kind with ⟨template, -⟩ | ⟨-, -, -, nonempty, last⟩
    · rw [real] at template
      cases template
    · cases reach : c.reach with
      | full =>
        obtain rfl := last.mp reach
        cases remaining
        have finished := Finished.pick picked (suggest_of_listed listed _) offered reach
        rw [whole.complete_eq] at finished
        exact ⟨_, by rwa [values_eq, List.append_nil]⟩
      | stage =>
        have next := Picked.pick picked (suggest_of_listed listed _) offered reach
          (filters?_apply_stage real reach)
        rw [whole.complete_eq] at next
        cases after with
        | nil =>
          rw [last.mpr rfl] at reach
          cases reach
        | cons following after =>
          have gained := List.length_pos_iff.mpr nonempty
          have total := congrArg List.length covers.parts_eq
          simp only [List.length_cons, List.length_append] at total
          rw [values_eq, ← List.append_assoc]
          exact shorter after.length (by omega) next whole.grammar_eq whole.fits remaining rfl

end Listed

/-- Picks from an empty draft lead to the end after as many as there are parts at most. Until
then there always is something to pick, and each pick goes on or has a filter built from the
text that it makes. Those texts are the ones that the definition accepts. -/
theorem picks_generate (d : Definition) (listed : ∀ part ∈ d.grammar, part.IsListed)
    (separated : d.Separated) :
    (∀ n filters, d.Picked n filters → n < d.grammar.length ∧ ∃ draft s more,
      filters = [.draft draft] ∧ SearchBar.suggest [d] draft = .ok (s :: more) ∧
        ∀ pick ∈ s :: more,
          (pick.reach = .stage ∧ d.Picked (n + 1) [.draft (pick.complete draft)]) ∨
          (pick.reach = .full ∧ d.Finished (n + 1) (pick.complete draft) ∧
            (apply [.draft draft] pick).filters? =
              ((d.build (pick.complete draft)).map fun filter =>
                [.draft [], filter]).mapError .factory)) ∧
    (∀ n whole, d.Finished n whole → n ≤ d.grammar.length) ∧
    ∀ whole, (∃ n, d.Finished n whole) ↔ d.accepts whole = true := by
  refine ⟨?_, ?_, ?_⟩
  · intro n filters picked
    obtain ⟨draft, rfl, stands⟩ := picked.stands listed separated
    obtain ⟨s, more, offered_eq⟩ := List.exists_cons_of_ne_nil stands.suggestions_ne_nil
    have given := suggest_of_listed listed draft
    refine ⟨stands.lt, draft, s, more, rfl, offered_eq ▸ given, ?_⟩
    intro pick member
    rw [← offered_eq] at member
    cases reach : pick.reach with
    | stage =>
      obtain ⟨real, -⟩ := stands.step listed separated member reach
      exact .inl ⟨rfl, .pick picked given member reach (filters?_apply_stage real reach)⟩
    | full =>
      obtain ⟨own, _, _, _, covers⟩ := covers_of_mem_suggestions member
      obtain ⟨real, -⟩ := covers.fits_of_full reach
      refine .inr ⟨rfl, .pick picked given member reach, ?_⟩
      rw [filters?_apply_build real reach, own]
      rfl
  · rintro n _ ⟨picked, -, -, -⟩
    obtain ⟨_, -, stands⟩ := picked.stands listed separated
    exact stands.lt
  · intro whole
    constructor
    · rintro ⟨_, finished⟩
      cases finished with
      | pick picked given member full =>
        rw [suggest_of_listed listed] at given
        cases given
        obtain ⟨own, _, _, pieces, covers⟩ := covers_of_mem_suggestions member
        obtain ⟨-, fits⟩ := covers.fits_of_full full
        rw [covers.complete_eq]
        exact accepts_of_separated separated (own ▸ fits)
    · intro accepted
      obtain ⟨pieces, reads⟩ := accepts_iff.mp accepted
      have whole_eq := reads.flatten_append
      rw [List.append_nil] at whole_eq
      obtain ⟨part, others, grammar_eq⟩ := List.exists_cons_of_ne_nil d.grammar_ne_nil
      have fits := reads.fits
      rw [grammar_eq] at fits
      rw [← whole_eq]
      exact finished_of_fits listed separated .start grammar_eq .nil fits

end Definition

def bound : Definition where
  tag := 0
  id := "bound"
  name := "Bound"
  grammar := [.literal ['n'], .options [['<'], ['<', '=']], .options [['x'], ['y']]]
  description := none
  source := none
  factory := none
  grammar_ne_nil := by decide
  grammar_valid := by decide

theorem bound_separated : bound.Separated := by decide

/-- A bound with the longer sign can be picked, in three picks at most, and none without a name. -/
theorem bound_generated : (∃ n ≤ 3, bound.Finished n ['n', '<', '=', 'x']) ∧
    ¬ ∃ n, bound.Finished n ['n', '<', '='] := by
  have listed : ∀ part ∈ bound.grammar, part.IsListed := by decide
  obtain ⟨-, few, generated⟩ := Definition.picks_generate bound listed bound_separated
  obtain ⟨n, finished⟩ := (generated ['n', '<', '=', 'x']).mpr rfl
  refine ⟨⟨n, few n _ finished, finished⟩, fun made => ?_⟩
  cases (generated ['n', '<', '=']).mp made

end SearchBar
