import SearchBar.Bar
import SearchBar.Proofs.Assigning

namespace SearchBar

variable {first later definitions : List Definition} {text : Text} {filters : List Filter}

theorem assign_append (first later : List Definition) (text : Text) :
    assign (first ++ later) text =
      ⟨(assign first text).places ++
          (assign later (Text.unwords (assign first text).leftover)).places,
        (assign later (Text.unwords (assign first text).leftover)).leftover⟩ := by
  -- the second list is offered the words of the draft, which are the words left
  have words := words_unwords_leftover first text
  simp only [assign] at words ⊢
  rw [words, Allocation.allocate_append]

theorem served_append (first later : List Definition) (text : Text) :
    (assign (first ++ later) text).served = (assign first text).served ++
      (assign later (Text.unwords (assign first text).leftover)).served := by
  rw [assign_append]
  exact List.filterMap_append

theorem Assignment.buildAll_append_eq_ok_iff {early late : List (Definition × Text)}
    {built : List Filter} :
    buildAll (early ++ late) = .ok built ↔ ∃ front back,
      buildAll early = .ok front ∧ buildAll late = .ok back ∧ built = front ++ back := by
  simp only [buildAll_eq_mapM, List.mapM_append]
  cases one : early.mapM (fun entry => entry.1.build entry.2 : _ → Except FactoryFault Filter) with
  | error fault => simp [bind, Except.bind]
  | ok front =>
    cases two : late.mapM (fun entry => entry.1.build entry.2 : _ → Except FactoryFault Filter) with
    | error fault => simp [bind, Except.bind]
    | ok back => simp [bind, Except.bind, pure, Except.pure, eq_comm]

theorem matchText_eq_ok_iff :
    matchText definitions text = .ok filters ↔ ∃ built,
      Assignment.buildAll (assign definitions text).served = .ok built ∧
        filters = .draft (Text.unwords (assign definitions text).leftover) :: built := by
  unfold matchText Assignment.filters
  cases made : Assignment.buildAll (assign definitions text).served with
  | error fault => simp [Except.map]
  | ok built => simp [Except.map, eq_comm]

theorem matchText_append_eq_ok_iff :
    matchText (first ++ later) text = .ok filters ↔ ∃ draft rest early late,
      matchText first text = .ok (.draft draft :: early) ∧
      matchText later draft = .ok (.draft rest :: late) ∧
      filters = .draft rest :: (early ++ late) := by
  rw [matchText_eq_ok_iff, served_append]
  constructor
  · rintro ⟨built, made, rfl⟩
    obtain ⟨early, late, one, two, rfl⟩ := Assignment.buildAll_append_eq_ok_iff.mp made
    refine ⟨_, _, early, late, matchText_eq_ok_iff.mpr ⟨early, one, rfl⟩,
      matchText_eq_ok_iff.mpr ⟨late, two, rfl⟩, ?_⟩
    rw [assign_append]
  · rintro ⟨draft, rest, early, late, one, two, rfl⟩
    obtain ⟨_, one, same⟩ := matchText_eq_ok_iff.mp one
    cases same
    obtain ⟨_, two, same⟩ := matchText_eq_ok_iff.mp two
    cases same
    refine ⟨early ++ late, Assignment.buildAll_append_eq_ok_iff.mpr ⟨_, _, one, two, rfl⟩, ?_⟩
    rw [assign_append]

theorem Catalog.definitions_of_ofSources {sources : List (List Definition)} {c : Catalog}
    (built : ofSources sources = .ok c) : c.definitions = sources.flatten := by
  unfold ofSources ofList at built
  split at built
  · cases built
  · cases built
    rfl

namespace Bar

theorem definitions_of_ofSettings [PluginHost] [SinkHost] {opens : Target → Bool} {roster : Roster}
    {source : PluginSource} {settings : Settings} {log : Logging} {bar : Bar}
    (built : (ofSettings opens roster source settings log).outcome = .ok bar) :
    ∃ supplied,
      ((registryOf roster source).state.collect roster settings.disabled).1 = .ok supplied ∧
        bar.catalog.definitions = supplied ++ settings.filters := by
  unfold ofSettings at built
  split at built
  · cases built
  · dsimp only at built
    split at built
    · cases built
    · unfold ofRegistry at built
      dsimp only at built
      split at built
      · cases built
      · rename_i supplied events collected
        unfold buildCatalog at built
        cases made : Catalog.ofSources [supplied, settings.filters] with
        | error fault =>
          rw [made] at built
          cases built
        | ok catalog =>
          rw [made] at built
          cases built
          refine ⟨supplied, by rw [collected], ?_⟩
          simpa using Catalog.definitions_of_ofSources made

end Bar

/-- Matching over two lists of definitions hands the words of the draft that the first leaves
to the second, and what the first builds stays as it is. So it is with the plugins of a bar and
its settings. -/
theorem match_composes [PluginHost] [SinkHost] (first later : List Definition) (text : Text) :
    assign (first ++ later) text =
      ⟨(assign first text).places ++
          (assign later (Text.unwords (assign first text).leftover)).places,
        (assign later (Text.unwords (assign first text).leftover)).leftover⟩ ∧
    (∀ filters, matchText (first ++ later) text = .ok filters ↔ ∃ draft rest early late,
      matchText first text = .ok (.draft draft :: early) ∧
      matchText later draft = .ok (.draft rest :: late) ∧
      filters = .draft rest :: (early ++ late)) ∧
    (∀ opens roster source settings log bar,
      (Bar.ofSettings opens roster source settings log).outcome = .ok bar → ∃ supplied,
        ((Bar.registryOf roster source).state.collect roster settings.disabled).1 =
          .ok supplied ∧
        bar.catalog.definitions = supplied ++ settings.filters ∧
        ∀ filters, (Bar.submit bar.catalog.definitions text).1 = .ok filters ↔
          ∃ draft rest early late,
            (Bar.submit supplied text).1 = .ok (.draft draft :: early) ∧
            (Bar.submit settings.filters draft).1 = .ok (.draft rest :: late) ∧
            filters = .draft rest :: (early ++ late)) := by
  refine ⟨assign_append first later text, fun filters => matchText_append_eq_ok_iff, ?_⟩
  intro opens roster source settings log bar built
  obtain ⟨supplied, collected, layered⟩ := Bar.definitions_of_ofSettings built
  refine ⟨supplied, collected, layered, fun filters => ?_⟩
  rw [layered]
  exact matchText_append_eq_ok_iff

def line : Definition where
  tag := 0
  id := "line"
  name := "Line"
  grammar := [.number ['n']]
  description := none
  source := none
  factory := none
  grammar_ne_nil := by decide
  grammar_valid := by decide

def column : Definition :=
  { line with tag := 1, id := "column", name := "Column" }

/-- Both could have either number; the one declared behind gets the one left. -/
theorem column_behind_line :
    matchText ([line] ++ [column]) ['7', ' ', 'x', ' ', '8', ' ', 'y'] =
      .ok [.draft ['x', ' ', 'y'], .finished line ['7'], .finished column ['8']] :=
  ((match_composes [line] [column] _).2.1 _).mpr
    ⟨['x', ' ', '8', ' ', 'y'], ['x', ' ', 'y'], [.finished line ['7']],
      [.finished column ['8']], rfl, rfl, rfl⟩

end SearchBar
