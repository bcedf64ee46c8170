import SearchBar.Bar
import SearchBar.Proofs.Plugin.Roll
import SearchBar.Proofs.Journal.Keeping
import SearchBar.Proofs.Indexing

namespace SearchBar

def Supply.list : Supply → List Definition
  | .definitions own => own
  | .nothing => []
  | .failure => []

namespace Registry

/-- The plugins on the list after changes, but for those that are left out by name. -/
def enabled (roster : Roster) (absent : List String) (changes : List Change) : List PluginId :=
  (roll roster changes).filter fun who => (roster who).name.all (!absent.contains ·)

variable {roster other : Roster} {absent more : List String} {changes : List Change}
  {listed : List (String × PluginId)}

theorem enabled_eq [PluginHost] [LawfulPluginHost]
    (kept : ∀ change ∈ changes, change.KeepsName roster) :
    enabled roster absent changes =
      ((after changes).listed.filter fun entry => !absent.contains entry.1).map (·.2) := by
  obtain ⟨named, same⟩ := named_after kept
  rw [enabled, ← same, plugins, List.filter_map]
  congr 1
  apply List.filter_congr
  intro entry member
  simp [named.name_eq entry member]

theorem mem_enabled [PluginHost] [LawfulPluginHost] {entry : String × PluginId}
    (kept : ∀ change ∈ changes, change.KeepsName roster) (member : entry ∈ (after changes).listed)
    (present : entry.1 ∉ absent) : entry.2 ∈ enabled roster absent changes := by
  rw [enabled_eq kept]
  exact List.mem_map_of_mem (List.mem_filter.mpr ⟨member, by simpa using present⟩)

theorem collectFrom_eq (supplied : ∀ entry ∈ listed, entry.1 ∉ absent →
      (roster entry.2).supply ≠ .failure) :
    (collectFrom roster absent listed).1 =
      .ok (((listed.filter fun entry => !absent.contains entry.1).map (·.2)).flatMap
        fun who => (roster who).supply.list) := by
  induction listed with
  | nil => rfl
  | cons entry rest ih =>
    obtain ⟨name, who⟩ := entry
    obtain ⟨first, others⟩ := List.forall_mem_cons.mp supplied
    specialize ih others
    by_cases out : name ∈ absent
    · simp [collectFrom, out, ih]
    · have fine := first out
      dsimp only at fine
      cases given : (roster who).supply with
      | failure => exact False.elim (fine given)
      | nothing => simp [collectFrom, out, given, ih, Supply.list]
      | definitions own => simp [collectFrom, out, given, ih, Supply.list, Except.map]

/-- What is collected depends on the listed names that are left out, and on what the other
plugins supply. -/
theorem collectFrom_congr (names : ∀ entry ∈ listed, entry.1 ∈ more ↔ entry.1 ∈ absent)
    (supplies : ∀ entry ∈ listed, entry.1 ∉ absent →
      (other entry.2).supply = (roster entry.2).supply) :
    collectFrom other more listed = collectFrom roster absent listed := by
  induction listed with
  | nil => rfl
  | cons entry rest ih =>
    obtain ⟨name, who⟩ := entry
    obtain ⟨name_iff, names⟩ := List.forall_mem_cons.mp names
    obtain ⟨supply_eq, supplies⟩ := List.forall_mem_cons.mp supplies
    specialize ih names supplies
    by_cases out : name ∈ absent
    · simp [collectFrom, out, name_iff.mpr out, ih]
    · simp [collectFrom, out, mt name_iff.mp out, supply_eq out, ih]

theorem disabledNames_text (absent : List String) :
    disabledNames (absent.map .text) = some absent := by
  simp [disabledNames, List.filterMap_map, Function.comp_def]

theorem collect_text (r : Registry) (roster : Roster) (absent : List String) :
    r.collect roster (absent.map .text) = collectFrom roster absent r.listed := by
  rw [collect, disabledNames_text]

end Registry

namespace Bar

def ofChanges [PluginHost] [SinkHost] (opens : Target → Bool) (roster : Roster)
    (changes : List Registry.Change) (settings : Settings) (log : Logging) :
    Transition Logging BarFault Bar :=
  ofSettings opens roster (.registered (Registry.after changes)) settings log

def entries (roster : Roster) (absent : List String) (changes : List Registry.Change)
    (settings : Settings) : List Definition :=
  ((Registry.enabled roster absent changes).flatMap fun who => (roster who).supply.list) ++
    settings.filters

variable [SinkHost] {opens : Target → Bool} {roster : Roster} {settings : Settings}
  {log : Logging} {own : List Sink}

theorem setupLogging_eq_ok [LawfulSinkHost] (kept : log.Kept own)
    (console : settings.enabled.holds = true → opens .console = true) :
    (setupLogging opens settings log).1 = .ok () := by
  have known : Level.ofName? settings.level.name = some settings.level := by
    cases settings.level <;> rfl
  unfold setupLogging
  split
  · next wanted =>
    refine kept.setup_eq_ok known fun target asked => ?_
    obtain rfl : target = .console := by simpa [Logging.LogRequest.targets] using asked
    exact console wanted
  · rfl

variable [PluginHost]

/-- Once the plugins have supplied their definitions, nothing can go wrong but an id that comes
twice. -/
theorem ofSettings_cases [LawfulSinkHost] {r : Registry} {supplied : List Definition}
    (kept : log.Kept own) (console : settings.enabled.holds = true → opens .console = true)
    (collected : (r.collect roster settings.disabled).1 = .ok supplied) :
    ((supplied ++ settings.filters).map Definition.id).Nodup ∧
        (∃ bar, (ofSettings opens roster (.registered r) settings log).outcome = .ok bar ∧
          bar.catalog.definitions = supplied ++ settings.filters) ∨
      ¬ ((supplied ++ settings.filters).map Definition.id).Nodup ∧
        ∃ fault, (ofSettings opens roster (.registered r) settings log).outcome =
          .error (.catalog fault) := by
  have wanted := setupLogging_eq_ok kept console
  have gathered : [supplied, settings.filters].flatten = supplied ++ settings.filters := by simp
  cases gave : r.collect roster settings.disabled with
  | mk outcome events =>
    rw [gave] at collected
    obtain rfl : outcome = .ok supplied := collected
    cases set : setupLogging opens settings log with
    | mk outcome ready =>
    rw [set] at wanted
    obtain rfl : outcome = .ok () := wanted
    simp only [ofSettings, set, registryOf, ofRegistry, gave, buildCatalog, Catalog.ofSources,
      gathered]
    rcases Catalog.ofList_cases (supplied ++ settings.filters) with
      ⟨nodup, catalog, made, same⟩ | ⟨front, d, back, holder, split, -, member, same, failed⟩
    · rw [made]
      exact .inl ⟨nodup, ⟨catalog⟩, rfl, same⟩
    · rw [failed, split]
      exact .inr ⟨Catalog.not_nodup_of_repeat member same, _, rfl⟩

theorem ofSettings_congr {r : Registry} {other : Roster} {changed : List Value}
    (same : r.collect other changed = r.collect roster settings.disabled) (log : Logging) :
    ofSettings opens other (.registered r) { settings with disabled := changed } log =
      ofSettings opens roster (.registered r) settings log := by
  simp only [ofSettings, setupLogging, registryOf, ofRegistry, same]

end Bar

/-- The catalog of a bar holds what the plugins supply that are on the list and not left out, in
the order in which they came, and then the filters of the settings; there is no bar exactly if two
of these have the same id. What the plugins supply that are left out makes no difference, nor do
names that nobody on the list has. -/
theorem catalog_of_enabled [PluginHost] [LawfulPluginHost] [SinkHost] [LawfulSinkHost]
    {opens : Target → Bool} {roster : Roster} {changes : List Registry.Change}
    {absent : List String} {settings : Settings} {log : Logging} {own : List Sink}
    (reached : log.Reached own)
    (console : settings.enabled.holds = true → opens .console = true)
    (left : settings.disabled = absent.map .text)
    (kept : ∀ change ∈ changes, change.KeepsName roster)
    (supplied : ∀ who ∈ Registry.enabled roster absent changes,
      (roster who).supply ≠ .failure) :
    ((∃ bar, (Bar.ofChanges opens roster changes settings log).outcome = .ok bar ∧
        bar.catalog.definitions = Bar.entries roster absent changes settings) ∨
      ∃ fault, (Bar.ofChanges opens roster changes settings log).outcome =
        .error (.catalog fault)) ∧
    ((∃ fault, (Bar.ofChanges opens roster changes settings log).outcome =
        .error (.catalog fault)) ↔
      ¬ ((Bar.entries roster absent changes settings).map Definition.id).Nodup) ∧
    (∀ other : Roster, (∀ who ∈ Registry.enabled roster absent changes,
        (other who).supply = (roster who).supply) →
      Bar.ofChanges opens other changes settings log =
        Bar.ofChanges opens roster changes settings log) ∧
    (∀ more : List String, (∀ who ∈ Registry.roll roster changes, ∀ name,
        (roster who).name = some name → (name ∈ more ↔ name ∈ absent)) →
      Bar.ofChanges opens roster changes { settings with disabled := more.map .text } log =
        Bar.ofChanges opens roster changes settings log) := by
  obtain ⟨named, same⟩ := Registry.named_after kept
  have collected : ((Registry.after changes).collect roster settings.disabled).1 = .ok
      ((Registry.enabled roster absent changes).flatMap fun who => (roster who).supply.list) := by
    rw [left, Registry.collect_text, Registry.enabled_eq kept]
    exact Registry.collectFrom_eq fun entry member present =>
      supplied entry.2 (Registry.mem_enabled kept member present)
  have outcome := Bar.ofSettings_cases reached.kept console collected
  refine ⟨?_, ?_, ?_, ?_⟩
  · exact outcome.imp And.right And.right
  · rcases outcome with ⟨nodup, bar, made, -⟩ | ⟨twice, failed⟩
    · rw [Bar.ofChanges, made]
      exact iff_of_false nofun (not_not_intro nodup)
    · exact iff_of_true failed twice
  · intro other agree
    refine Bar.ofSettings_congr ?_ log
    rw [left, Registry.collect_text, Registry.collect_text]
    exact Registry.collectFrom_congr (fun _ _ => Iff.rfl) fun entry member present =>
      agree entry.2 (Registry.mem_enabled kept member present)
  · intro more agree
    refine Bar.ofSettings_congr ?_ log
    rw [left, Registry.collect_text, Registry.collect_text]
    refine Registry.collectFrom_congr (fun entry member => ?_) fun _ _ _ => rfl
    have on : entry.2 ∈ Registry.roll roster changes := by
      rw [← same]
      exact List.mem_map_of_mem member
    exact agree entry.2 on entry.1 (named.name_eq entry member)

def page : Definition :=
  { line with tag := 2, id := "page" }

def impostor : Definition :=
  { line with tag := 3 }

def supplier (name : String) (own : List Definition) : Plugin :=
  { Registry.silentPlugin (some name) .marked with supply := .definitions own }

def crew : Roster
  | 0 => supplier "text" [line]
  | 1 => supplier "table" [column]
  | 2 => supplier "mock" [impostor]
  | _ => Registry.silentPlugin none .unmarked

def shifts : List Registry.Change :=
  [.enter crew 0, .enter crew 1, .leave "text", .enter crew 2, .enter crew 0, .enter crew 3]

def withoutMock : Settings :=
  ⟨.bool true, .debug, [.text "mock", .text "ghost"], [page]⟩

/-- The plugin that left and came again is behind the other one, and the id that is supplied
twice does no harm as long as one of its two plugins is left out. -/
theorem crew_without_mock :
    ∃ bar, (Bar.ofChanges (fun _ => true) crew shifts withoutMock .start).outcome = .ok bar ∧
      bar.catalog.definitions = [column, line, page] := by
  have supplied : ∀ who ∈ Registry.enabled crew ["mock", "ghost"] shifts,
      (crew who).supply ≠ .failure := by
    intro who member
    have present : Registry.enabled crew ["mock", "ghost"] shifts = [1, 0] := by rfl
    rw [present] at member
    simp only [List.mem_cons, List.not_mem_nil, or_false] at member
    rcases member with rfl | rfl <;> exact Supply.noConfusion
  have unused : Logging.start.Reached [] := .start ⟨List.nodup_nil, List.forall_mem_nil _⟩ rfl
  obtain ⟨made | failed, clash, -⟩ := @catalog_of_enabled _ _ _ _ (fun _ => true) crew shifts
    ["mock", "ghost"] withoutMock _ _ unused (fun _ => rfl) rfl (by decide) supplied
  · exact made
  · exact False.elim (clash.mp failed (by decide))

end SearchBar
