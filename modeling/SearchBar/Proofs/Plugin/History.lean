import SearchBar.Proofs.Plugin.Discovering

namespace SearchBar.Registry

variable {r : Registry} {roster : Roster} {entries : List EntryPoint}

theorem mem_offered_iff {entry : EntryPoint} :
    entry ∈ entries.filter (·.group == entryPointGroup) ↔
      entry ∈ entries ∧ entry.group = entryPointGroup := by
  rw [List.mem_filter, beq_iff_eq]

theorem exists_offered_iff {good : EntryPoint → Prop} :
    (∃ entry ∈ entries, entry.group = entryPointGroup ∧ good entry) ↔
      ∃ entry ∈ entries.filter (·.group == entryPointGroup), good entry := by
  simp only [mem_offered_iff, and_assoc]

section Histories

variable [PluginHost]

inductive Call where
  | register (roster : Roster) (who : PluginId)
  | unregister (name : String)
  | discover (roster : Roster) (entries : List EntryPoint)

namespace Call

def run : Call → Registry → Registry
  | register roster who, r => (r.register roster who).state
  | unregister name, r => (r.unregister name).state
  | discover roster entries, r => (r.discover roster entries).state

/-- The call offers no plugin that the host knows under a name that is not listed. -/
def IsSteady : Call → Registry → Prop
  | register roster who, r => ¬ r.Renews roster who
  | unregister _, _ => True
  | discover roster entries, r =>
    ∀ entry ∈ entries, entry.group = entryPointGroup → ¬ r.RenewsBy roster entry

end Call

inductive Reached (allowed : Call → Registry → Prop) : Registry → Prop where
  | empty : Reached allowed .empty
  | call {r : Registry} {c : Call} : Reached allowed r → allowed c r → Reached allowed (c.run r)

variable [LawfulPluginHost] {allowed : Call → Registry → Prop}

theorem Call.sound_run (sound : r.host.Sound) (c : Call) : (c.run r).host.Sound := by
  cases c with
  | register roster who => exact sound_register sound roster who
  | unregister name => exact sound_unregister sound name
  | discover roster entries => exact sound_enrolAll sound roster _

theorem Reached.sound (reached : Reached allowed r) : r.host.Sound := by
  induction reached with
  | empty => exact Host.sound_empty
  | @call r c _ _ ih => exact c.sound_run ih

theorem InStep.call (step : r.InStep) {c : Call} (steady : c.IsSteady r) : (c.run r).InStep := by
  cases c with
  | register roster who => exact step.register steady
  | unregister name => exact step.unregister name
  | discover roster entries =>
    apply step.enrolAll
    intro entry offered
    obtain ⟨member, group⟩ := mem_offered_iff.mp offered
    exact steady entry member group

theorem Reached.inStep (reached : Reached allowed r)
    (steady : ∀ c r, allowed c r → c.IsSteady r) : r.InStep := by
  induction reached with
  | empty => exact .empty
  | call _ called ih => exact ih.call (steady _ _ called)

/-- A registration that fails leaves both lists as they were, unless it offers a plugin that the
host knows under a name that is not listed: this is refused, and the host forgets the plugin. A
listed name can be taken off both lists exactly if the host knows its plugin, and it does as long
as all calls are steady, where the two lists hold the same plugins. -/
theorem lists_in_step (reached : Reached allowed r) :
    (∀ roster who fault, (r.register roster who).outcome = .error fault →
      ¬ r.Renews roster who → (r.register roster who).state = r) ∧
    (∀ roster who, r.Renews roster who →
      (∃ name reason, (r.register roster who).outcome = .error (.refused name reason)) ∧
      (r.register roster who).state.listed = r.listed ∧
      (r.register roster who).state.host.knows who = false) ∧
    (∀ name who, r.get? name = some who →
      ((r.unregister name).outcome = .ok () ↔ r.host.knows who = true) ∧
      (r.unregister name).state.listed = r.listed.filter (·.1 != name) ∧
      (r.unregister name).state.host.knows who = false) ∧
    ((∀ c r, allowed c r → c.IsSteady r) →
      r.InStep ∧ ∀ name who, r.get? name = some who →
        (r.unregister name).outcome = .ok () ∧ (r.unregister name).state.InStep) := by
  have sound := reached.sound
  have off : ∀ name who, r.get? name = some who →
      ((r.unregister name).outcome = .ok () ↔ r.host.knows who = true) ∧
      (r.unregister name).state.listed = r.listed.filter (·.1 != name) ∧
      (r.unregister name).state.host.knows who = false := by
    intro name who listed
    rcases unregister_cases sound listed with ⟨known, gone⟩ | ⟨unknown, kept⟩
    · rw [gone]
      exact ⟨iff_of_true rfl known, rfl, Host.knows_without_self⟩
    · rw [kept, unknown]
      exact ⟨iff_of_false nofun nofun, rfl, rfl⟩
  refine ⟨?_, ?_, off, ?_⟩
  · intro roster who fault failed fresh
    rcases register_cases sound roster who with
      ⟨name, -, -, -, -, registered⟩ | ⟨renewed, -⟩ | ⟨-, own, unchanged, -⟩
    · rw [registered] at failed
      cases failed
    · exact False.elim (fresh renewed)
    · rw [unchanged]
  · intro roster who renews
    rcases register_cases sound roster who with
      ⟨name, -, -, unknown, -⟩ | ⟨-, name, reason, refused⟩ | ⟨fresh, -⟩
    · rw [renews.1] at unknown
      cases unknown
    · rw [refused]
      exact ⟨⟨name, reason, rfl⟩, rfl, Host.knows_without_self⟩
    · exact False.elim (fresh renews)
  · intro steady
    have step := reached.inStep steady
    refine ⟨step, fun name who listed => ⟨?_, step.unregister name⟩⟩
    exact (off name who listed).1.mpr (step.knows_of_get? listed)

end Histories

def silentPlugin (name : Option String) (hook : Hook) : Plugin :=
  ⟨name, "0.0.0", "", hook, .nothing⟩

def workbench : Roster
  | 0 | 1 => silentPlugin (some "http") .marked
  | 2 => silentPlugin (some "broken") .malformed
  | 3 => silentPlugin none .marked
  | _ => silentPlugin (some "mock") .unmarked

def started : Registry :=
  (Registry.empty.register workbench 0).state

theorem reached_started : Reached Call.IsSteady started := by
  have unknown : Call.IsSteady (.register workbench 0) .empty := by
    rintro ⟨known, -⟩
    cases known
  exact .call .empty unknown

theorem started_in_step :
    Reached Call.IsSteady started ∧
    (started.register workbench 2).outcome = .error (.refused "broken" .malformedHook) ∧
    (started.register workbench 2).state = started ∧
    (started.unregister "http").outcome = .ok () ∧
      (started.unregister "http").state.names = [] := by
  have unknown : ¬ started.Renews workbench 2 := by
    rintro ⟨known, -⟩
    cases known
  obtain ⟨unchanged, -, listed, steady⟩ := lists_in_step reached_started
  obtain ⟨-, off⟩ := steady fun _ _ called => called
  refine ⟨reached_started, rfl, unchanged workbench 2 _ rfl unknown, (off "http" 0 rfl).1, ?_⟩
  rw [Registry.names, (listed "http" 0 rfl).2.1]
  rfl

/-- Offered again under another name, a plugin stays listed under the old one and is unknown to
the host, and can no longer be taken off the list without a fault. -/
theorem renewed_plugin_forgotten : ∃ renamed fault, started.names = ["http"] ∧
    started.host.knows 0 = true ∧
    (started.register renamed 0).outcome = .error fault ∧
    (started.register renamed 0).state.names = ["http"] ∧
    (started.register renamed 0).state.host.knows 0 = false ∧
    ((started.register renamed 0).state.unregister "http").outcome = .error .unknownToHost :=
  ⟨workbench.rename 0 "web", _, rfl, rfl, rfl, rfl, rfl, rfl⟩

section Histories

variable [PluginHost] [LawfulPluginHost] {allowed : Call → Registry → Prop}

/-- A discovery raises exactly where an entry point offers a plugin without a name, and otherwise
gives the names that are new on the list, in order. If no known plugin is offered under a name
that is not listed, the registry is as if only those that succeed had been registered. -/
theorem discovery_contained (reached : Reached allowed r) (roster : Roster)
    (entries : List EntryPoint) :
    (∀ fault, (r.discover roster entries).outcome = .error fault ↔
      fault = .nameless ∧
        ∃ entry ∈ entries, entry.group = entryPointGroup ∧ entry.IsNameless roster) ∧
    (∀ names, (r.discover roster entries).outcome = .ok names →
      (r.discover roster entries).state.names = r.names ++ names) ∧
    ((∀ entry ∈ entries, entry.group = entryPointGroup →
        ¬ entry.IsNameless roster ∧ ¬ r.RenewsBy roster entry) →
      ∃ taken, taken = admissions roster (entries.filter (·.group == entryPointGroup)) r ∧
        (r.discover roster entries).outcome =
          .ok (taken.filterMap fun who => (roster who).name) ∧
        (r.registerAll roster taken).outcome = .ok () ∧
        (r.discover roster entries).state = (r.registerAll roster taken).state) := by
  have sound := reached.sound
  refine ⟨?_, ?_, ?_⟩
  · intro fault
    rw [exists_offered_iff]
    rcases enrolAll_outcome sound roster (entries.filter (·.group == entryPointGroup)) with
      ⟨⟨names, found, -⟩, known⟩ | ⟨stopped, nameless⟩
    · rw [discover, found]
      refine iff_of_false nofun ?_
      rintro ⟨-, entry, offered, nameless⟩
      exact known entry offered nameless
    · rw [discover, stopped]
      exact ⟨fun same => ⟨(Except.error.inj same).symm, nameless⟩, fun stops => by rw [stops.1]⟩
  · intro names given
    rcases enrolAll_outcome sound roster (entries.filter (·.group == entryPointGroup)) with
      ⟨⟨own, found, listed⟩, -⟩ | ⟨stopped, -⟩
    · obtain rfl := Except.ok.inj (found.symm.trans given)
      exact listed
    · cases stopped.symm.trans given
  · intro fine
    have known : ∀ entry ∈ entries.filter (·.group == entryPointGroup),
        ¬ entry.IsNameless roster ∧ ¬ r.RenewsBy roster entry := by
      intro entry offered
      obtain ⟨member, group⟩ := mem_offered_iff.mp offered
      exact fine entry member group
    obtain ⟨made, state_eq, found⟩ := enrolAll_eq_registerAll sound
      (fun entry offered => (known entry offered).1) (fun entry offered => (known entry offered).2)
    exact ⟨_, rfl, found, made, state_eq.symm⟩

end Histories

def offered (name : String) (who : PluginId) : EntryPoint :=
  ⟨name, entryPointGroup, .ok who⟩

def mixedEntries : List EntryPoint :=
  [⟨"gone", entryPointGroup, .error "no such module"⟩, offered "again" 1, offered "broken" 2,
    offered "mock" 4]

/-- One entry point cannot be loaded, the next plugins are refused for a used name and for a
malformed hook, and the last one is registered as if it had been alone. -/
theorem discovery_of_mock : Reached Call.IsSteady started ∧
    (∀ entry ∈ mixedEntries, entry.group = entryPointGroup →
      ¬ entry.IsNameless workbench ∧ ¬ started.RenewsBy workbench entry) ∧
    (started.discover workbench mixedEntries).outcome = .ok ["mock"] ∧
    (started.discover workbench mixedEntries).state = (started.register workbench 4).state := by
  have fine : ∀ entry ∈ mixedEntries, entry.group = entryPointGroup →
      ¬ entry.IsNameless workbench ∧ ¬ started.RenewsBy workbench entry := by
    intro entry member _
    simp only [mixedEntries, List.mem_cons, List.not_mem_nil, or_false] at member
    constructor
    · rintro ⟨who, given, nameless⟩
      rcases member with rfl | rfl | rfl | rfl <;> cases given <;> cases nameless
    · rintro ⟨who, given, known, -⟩
      rcases member with rfl | rfl | rfl | rfl <;> cases given <;> cases known
  obtain ⟨-, -, alone⟩ := discovery_contained reached_started workbench mixedEntries
  obtain ⟨taken, rfl, found, -, state_eq⟩ := alone fine
  exact ⟨reached_started, fine, found, state_eq⟩

theorem nameless_plugin_stops :
    (started.discover workbench [offered "nameless" 3, offered "mock" 4]).outcome =
        .error .nameless ∧
      (started.discover workbench [offered "nameless" 3, offered "mock" 4]).state = started ∧
      (started.register workbench 4).outcome = .ok () :=
  ⟨rfl, rfl, rfl⟩

end SearchBar.Registry
