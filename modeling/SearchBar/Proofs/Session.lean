import SearchBar.Bar
import SearchBar.Proofs.Applying
import SearchBar.Proofs.Finishing
import SearchBar.Proofs.Matching
import SearchBar.Proofs.Separation

namespace SearchBar

inductive Move where
  | write (text : Text)
  | pick (s : Suggestion)

def Move.growth : Move → Nat
  | write _ => 0
  | pick s => if s.reach = .full then 1 else 0

namespace Bar

/-- The filters before and after a move; only what is offered for the draft can be picked. -/
inductive Step (bar : Bar) : List Filter → Move → List Filter → Prop where
  | write (old new : Text) (others : List Filter) :
      Step bar (.draft old :: others) (.write new) (.draft new :: others)
  | pick {draft : Text} {others after : List Filter} {offered : List Suggestion}
      {s : Suggestion} :
      (Bar.suggest bar.catalog.definitions draft).1 = .ok offered → s ∈ offered →
        (Bar.complete (.draft draft :: others) s).1.filters? = .ok after →
          Step bar (.draft draft :: others) (.pick s) after

inductive Reached (bar : Bar) (text : Text) : List Filter → Prop where
  | start {filters : List Filter} :
      (Bar.submit bar.catalog.definitions text).1 = .ok filters → Reached bar text filters
  | move {filters after : List Filter} {move : Move} :
      Reached bar text filters → bar.Step filters move after → Reached bar text after

/-- A filter of one of the bar's definitions, built from a text that it accepts. -/
def Builds (bar : Bar) (filter : Filter) : Prop :=
  ∃ d text, filter = .finished d text ∧ d ∈ bar.catalog.definitions ∧ d.accepts text = true

def Sound (bar : Bar) (filters : List Filter) : Prop :=
  ∃ draft others, filters = .draft draft :: others ∧ ∀ filter ∈ others, bar.Builds filter

variable {bar : Bar} {draft text : Text} {filters others after : List Filter} {move : Move}
  {offered : List Suggestion} {s : Suggestion}

theorem suggest_eq_ok_iff {definitions : List Definition} :
    (Bar.suggest definitions text).1 = .ok offered ↔
      SearchBar.suggest definitions text = .ok offered := by
  unfold Bar.suggest
  split
  · rename_i suggestions given
    rw [given]
  · rename_i fault given
    rw [given]

theorem submit_of_plain (plain : ∀ d ∈ bar.catalog.definitions, d.factory = none) (text : Text) :
    ∃ filters, (Bar.submit bar.catalog.definitions text).1 = .ok filters ∧ bar.Sound filters := by
  refine ⟨_, matchText_of_plain plain text, _, _, rfl, ?_⟩
  intro filter member
  obtain ⟨⟨d, word⟩, served, rfl⟩ := List.mem_map.mp member
  obtain ⟨declared, accepted⟩ := accepts_of_mem_served served
  exact ⟨d, word, rfl, declared, accepted⟩

section Separated

variable (separated : ∀ d ∈ bar.catalog.definitions, d.Separated)
  (plain : ∀ d ∈ bar.catalog.definitions, d.factory = none)

include separated plain

/-- Applying what is offered never fails. It leaves the filters in place and adds one, built
by the bar, exactly if the suggestion reaches the end. -/
theorem filters?_complete
    (given : (Bar.suggest bar.catalog.definitions draft).1 = .ok offered) (member : s ∈ offered)
    (others : List Filter) :
    ∃ next added, (Bar.complete (.draft draft :: others) s).1.filters? =
        .ok (.draft next :: (others ++ added)) ∧
      added.length = (Move.pick s).growth ∧ ∀ filter ∈ added, bar.Builds filter := by
  rw [suggest_eq_ok (suggest_eq_ok_iff.mp given)] at member
  obtain ⟨declared, own⟩ := mem_definitions_of_mem_suggestionsFor member
  obtain ⟨-, before, after, pieces, covers⟩ := Definition.covers_of_mem_suggestions own
  show ∃ next added, (apply (.draft draft :: others) s).filters? = _ ∧ _
  cases reach : s.reach with
  | stage =>
    have none : (Move.pick s).growth = 0 := by simp [Move.growth, reach]
    rw [none]
    cases template : s.template with
    | true => exact ⟨draft, [], by simp [filters?_apply_template template], rfl, by simp⟩
    | false =>
      exact ⟨s.complete draft, [], by simp [filters?_apply_stage template reach], rfl, by simp⟩
  | full =>
    have one : (Move.pick s).growth = 1 := by simp [Move.growth, reach]
    rw [one]
    obtain ⟨real, fits⟩ := covers.fits_of_full reach
    have accepted : s.definition.accepts (s.complete draft) = true := by
      rw [covers.complete_eq]
      exact Definition.accepts_of_separated (separated _ declared) fits
    refine ⟨[], [.finished s.definition (s.complete draft)],
      filters?_apply_full real reach (plain _ declared), rfl, ?_⟩
    intro filter added
    rw [List.mem_singleton.mp added]
    exact ⟨s.definition, s.complete draft, rfl, declared, accepted⟩

theorem Step.extends (step : bar.Step filters move after) :
    ∃ next added, after = .draft next :: (filters.tail ++ added) ∧
      added.length = move.growth ∧ ∀ filter ∈ added, bar.Builds filter := by
  cases step with
  | write old new others => exact ⟨new, [], by simp, rfl, by simp⟩
  | @pick draft others _ _ s given member made =>
    obtain ⟨next, added, applied, length, builds⟩ :=
      filters?_complete separated plain given member others
    rw [applied] at made
    exact ⟨next, added, (Except.ok.inj made).symm, length, builds⟩

theorem Sound.step (sound : bar.Sound filters) (step : bar.Step filters move after) :
    bar.Sound after := by
  obtain ⟨draft, others, rfl, builds⟩ := sound
  obtain ⟨next, added, rfl, -, new⟩ := step.extends separated plain
  refine ⟨next, others ++ added, rfl, ?_⟩
  intro filter member
  rcases List.mem_append.mp member with old | late
  · exact builds filter old
  · exact new filter late

theorem Reached.sound (reached : bar.Reached text filters) : bar.Sound filters := by
  induction reached with
  | start submitted =>
    obtain ⟨filters, built, sound⟩ := submit_of_plain plain text
    rw [built] at submitted
    cases submitted
    exact sound
  | move _ step ih => exact ih.step separated plain step

end Separated

/-- Every session over separated definitions without factories keeps one draft in front of
filters that the bar builds. A text can always be submitted, every offer can be picked, and a
move keeps the filters in their places and adds one exactly if it picks a suggestion that
reaches the end. -/
theorem session_sound (separated : ∀ d ∈ bar.catalog.definitions, d.Separated)
    (plain : ∀ d ∈ bar.catalog.definitions, d.factory = none) (text : Text) :
    (∃ filters, (Bar.submit bar.catalog.definitions text).1 = .ok filters) ∧
    ∀ filters, bar.Reached text filters →
      bar.Sound filters ∧
      (∀ move after, bar.Step filters move after → ∃ next added,
        after = .draft next :: (filters.tail ++ added) ∧ added.length = move.growth) ∧
      (∀ draft others offered, filters = .draft draft :: others →
        (Bar.suggest bar.catalog.definitions draft).1 = .ok offered →
          ∀ s ∈ offered, ∃ after, bar.Step filters (.pick s) after) := by
  refine ⟨?_, ?_⟩
  · obtain ⟨filters, submitted, -⟩ := submit_of_plain plain text
    exact ⟨filters, submitted⟩
  · intro filters reached
    refine ⟨reached.sound separated plain, ?_, ?_⟩
    · intro move after step
      obtain ⟨next, added, after_eq, length, -⟩ := step.extends separated plain
      exact ⟨next, added, after_eq, length⟩
    · rintro draft others offered rfl given s member
      obtain ⟨next, added, made, -⟩ := filters?_complete separated plain given member others
      exact ⟨_, .pick given member made⟩

def code : Definition where
  tag := 0
  id := "code"
  name := "Code"
  grammar := [.literal ['c'], .options [['='], ['!', '=']], .digits 2 ['n']]
  description := none
  source := none
  factory := none
  grammar_ne_nil := by decide
  grammar_valid := by decide

theorem code_separated : code.Separated := by decide

def codeBar : Bar where
  catalog :=
    { definitions := [code]
      places := [(code.id, 0)]
      lookup_iff := fun id i => by
        obtain rfl : i = 0 := Fin.fin_one_eq_zero i
        by_cases same : id = code.id
        · exact iff_of_true (same ▸ List.lookup_cons_self) same.symm
        · have other : (id == code.id) = false := beq_false_of_ne same
          refine iff_of_false ?_ (Ne.symm same)
          simp [List.lookup_cons, other] }

/-- A code is submitted with a word that nobody takes, another one is typed and picked. -/
theorem codeBar_sound :
    codeBar.Reached ['c', '=', '1', '2', ' ', 'x']
        [.draft [], .finished code ['c', '=', '1', '2'], .finished code ['c', '=', '3', '4']] ∧
      codeBar.Sound
        [.draft [], .finished code ['c', '=', '1', '2'], .finished code ['c', '=', '3', '4']] := by
  have separated : ∀ d ∈ codeBar.catalog.definitions, d.Separated := by
    intro d member
    rw [List.mem_singleton.mp member]
    exact code_separated
  have plain : ∀ d ∈ codeBar.catalog.definitions, d.factory = none := by
    intro d member
    rw [List.mem_singleton.mp member]
    rfl
  have submitted : codeBar.Reached ['c', '=', '1', '2', ' ', 'x']
      [.draft ['x'], .finished code ['c', '=', '1', '2']] := .start rfl
  have typed : codeBar.Reached ['c', '=', '1', '2', ' ', 'x']
      [.draft ['c', '=', '3', '4'], .finished code ['c', '=', '1', '2']] :=
    .move submitted (.write _ _ _)
  have offer : (Bar.suggest codeBar.catalog.definitions ['c', '=', '3', '4']).1 =
      .ok [⟨2, ['3', '4'], ['3', '4'], code, .full, false⟩] := rfl
  have picked := Reached.move typed (.pick offer (List.mem_singleton.mpr rfl) rfl)
  exact ⟨picked, ((session_sound separated plain _).2 _ picked).1⟩

end Bar
end SearchBar
