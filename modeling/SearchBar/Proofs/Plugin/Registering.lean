import SearchBar.Plugin.Registry
import SearchBar.Proofs.Plugin.Hosting

/-! The registry of plugins beside the host's.
Registering, taking off the list and discovering keep the two in step, with one exception: a
plugin that the host knows, offered again under a name that is not listed, is refused, and the
host then forgets it although it stays listed. Every other registration that fails leaves both
as they were. -/
namespace SearchBar.Registry

variable {r : Registry} {roster : Roster} {who other : PluginId} {name : String}

/-- A plugin that the host knows is on offer under a name that is not listed. -/
def Renews (r : Registry) (roster : Roster) (who : PluginId) : Prop :=
  r.host.knows who = true ∧ ∃ name, (roster who).name = some name ∧ r.get? name = none

def including (r : Registry) (who : PluginId) (name : String) (hook : Hook) : Registry :=
  ⟨r.listed ++ [(name, who)], r.host.including who name hook⟩

theorem get?_eq_none_iff : r.get? name = none ↔ name ∉ r.names := by
  rw [get?, List.lookup_eq_none_iff, names, List.mem_map]
  constructor
  · rintro apart ⟨entry, member, rfl⟩
    simpa using apart entry member
  · intro missing entry member
    exact bne_iff_ne.mpr fun same => missing ⟨entry, member, same.symm⟩

theorem mem_listed_of_get? (listed : r.get? name = some who) : (name, who) ∈ r.listed := by
  obtain ⟨before, after, split, -⟩ := List.lookup_eq_some_iff.mp listed
  simp [split]

/-- Both lists hold the same plugins under the same names, in the same order. -/
structure InStep (r : Registry) : Prop where
  same : r.host.names = r.listed.map fun (name, who) => (Host.hostName who name, who)
  sound : r.host.Sound
  names_nodup : r.names.Nodup

namespace InStep

theorem empty : Registry.empty.InStep :=
  ⟨rfl, Host.sound_empty, List.nodup_nil⟩

theorem knows_iff (step : r.InStep) : r.host.knows who = true ↔ who ∈ r.listed.map (·.2) := by
  rw [Host.knows_iff, step.same, List.map_map]
  rfl

theorem filter_name_eq (step : r.InStep) (listed : r.get? name = some who) :
    r.listed.filter (·.1 != name) = r.listed.filter (·.2 != who) := by
  have member := mem_listed_of_get? listed
  have plugins_nodup : (r.listed.map (·.2)).Nodup := by
    have nodup := step.sound.plugins_nodup
    rwa [step.same, List.map_map] at nodup
  apply List.filter_congr
  intro entry among
  rw [Bool.eq_iff_iff, bne_iff_ne, bne_iff_ne]
  apply not_congr
  constructor
  · intro same
    rw [List.inj_on_of_nodup_map step.names_nodup among member same]
  · intro same
    rw [List.inj_on_of_nodup_map plugins_nodup among member same]

theorem knows_of_get? (step : r.InStep) (listed : r.get? name = some who) :
    r.host.knows who = true :=
  step.knows_iff.mpr (List.mem_map_of_mem (mem_listed_of_get? listed))

end InStep

section Calls

variable [PluginHost] [LawfulPluginHost]

/-- A plugin is added to both lists, or the host forgets one that is offered under a new name, or
nothing happens. Only a plugin without a name fails in a way that is not skipped. -/
theorem register_cases (sound : r.host.Sound) (roster : Roster) (who : PluginId) :
    (∃ name, (roster who).name = some name ∧ r.get? name = none ∧ r.host.knows who = false ∧
      Host.hostName who name ∉ r.host.names.map (·.1) ∧
      r.register roster who =
        ⟨.ok (), r.including who name (roster who).hook, [.registered name]⟩) ∨
    (r.Renews roster who ∧ ∃ name reason, r.register roster who =
      ⟨.error (.refused name reason), { r with host := r.host.without who }, []⟩) ∨
    (¬ r.Renews roster who ∧ ∃ fault, r.register roster who = ⟨.error fault, r, []⟩ ∧
      (fault = .nameless ∧ (roster who).name = none ∨
        fault.isSkipped = true ∧ (roster who).name ≠ none)) := by
  cases named : (roster who).name with
  | none =>
    refine .inr (.inr ⟨?_, .nameless, ?_, .inl ⟨rfl, rfl⟩⟩)
    · rintro ⟨-, name, impossible, -⟩
      rw [named] at impossible
      cases impossible
    · simp only [register, named]
  | some name =>
    have renews_iff : r.Renews roster who ↔ r.host.knows who = true ∧ r.get? name = none := by
      simp [Renews, named]
    cases listed : r.get? name with
    | some holder =>
      refine .inr (.inr ⟨?_, .taken name, ?_, .inr ⟨rfl, Option.some_ne_none name⟩⟩)
      · rw [renews_iff, listed]
        exact fun impossible => Option.some_ne_none holder impossible.2
      · simp [register, named, listed]
    | none =>
      rcases PluginHost.register_cases r.host who name (roster who).hook with
        ⟨⟨reason, refused⟩, -⟩ | ⟨⟨unknown, free⟩, ⟨-, reason, noted⟩ | ⟨-, admitted⟩⟩
      · cases known : r.host.knows who with
        | true =>
          refine .inr (.inl ⟨renews_iff.mpr ⟨known, listed⟩, name, reason, ?_⟩)
          simp [register, named, listed, refused, afterRefusal,
            LawfulPluginHost.forgets sound known]
        | false =>
          obtain ⟨missing, kept⟩ := LawfulPluginHost.misses known
          refine .inr (.inr ⟨?_, .refused name reason, ?_, .inr ⟨rfl, Option.some_ne_none name⟩⟩)
          · simp [renews_iff, known]
          · simp [register, named, listed, refused, afterRefusal, kept]
      · refine .inr (.inr ⟨?_, .refused name reason, ?_,
          .inr ⟨rfl, Option.some_ne_none name⟩⟩)
        · simp [renews_iff, unknown]
        · simp [register, named, listed, noted, afterRefusal,
            PluginHost.unregister_note sound free unknown]
      · refine .inl ⟨name, rfl, listed, unknown, free, ?_⟩
        simp [register, named, listed, admitted, including]

theorem sound_register (sound : r.host.Sound) (roster : Roster) (who : PluginId) :
    (r.register roster who).state.host.Sound := by
  rcases register_cases sound roster who with
    ⟨name, -, -, unknown, free, registered⟩ | ⟨-, name, reason, refused⟩ | ⟨-, fault, failed, -⟩
  · rw [registered]
    exact sound.including free unknown
  · rw [refused]
    exact sound.without who
  · rwa [failed]

theorem renews_register (sound : r.host.Sound) (fresh : ¬ r.Renews roster who)
    (renews : (r.register roster who).state.Renews roster other) : r.Renews roster other := by
  rcases register_cases sound roster who with
    ⟨name, named, -, -, -, registered⟩ | ⟨renewed, -⟩ | ⟨-, fault, failed, -⟩
  · rw [registered] at renews
    obtain ⟨known, new, offered, missing⟩ := renews
    have apart : new ∉ r.names ∧ new ≠ name := by
      simpa [get?_eq_none_iff, names, including] using missing
    rcases Host.knows_including.mp known with old | rfl
    · exact ⟨old, new, offered, get?_eq_none_iff.mpr apart.1⟩
    · rw [named] at offered
      exact False.elim (apart.2 (Option.some.inj offered).symm)
  · exact False.elim (fresh renewed)
  · rwa [failed] at renews

theorem unregister_cases (sound : r.host.Sound) (listed : r.get? name = some who) :
    r.host.knows who = true ∧ r.unregister name =
      ⟨.ok (), ⟨r.listed.filter (·.1 != name), r.host.without who⟩, []⟩ ∨
    r.host.knows who = false ∧ r.unregister name =
      ⟨.error .unknownToHost, ⟨r.listed.filter (·.1 != name), r.host⟩, []⟩ := by
  cases known : r.host.knows who with
  | true =>
    refine .inl ⟨rfl, ?_⟩
    simp only [unregister, listed, LawfulPluginHost.forgets sound known]
  | false =>
    refine .inr ⟨rfl, ?_⟩
    obtain ⟨missing, kept⟩ := LawfulPluginHost.misses known
    simp only [unregister, listed, kept]

theorem sound_unregister (sound : r.host.Sound) (name : String) :
    (r.unregister name).state.host.Sound := by
  cases listed : r.get? name with
  | none => simpa only [unregister, listed] using sound
  | some who =>
    rcases unregister_cases sound listed with ⟨-, off⟩ | ⟨-, kept⟩
    · rw [off]
      exact sound.without who
    · rwa [kept]

theorem InStep.register (step : r.InStep) (fresh : ¬ r.Renews roster who) :
    (r.register roster who).state.InStep := by
  rcases register_cases step.sound roster who with
    ⟨name, -, missing, unknown, free, registered⟩ | ⟨renewed, -⟩ | ⟨-, fault, failed, -⟩
  · rw [registered]
    refine ⟨?_, step.sound.including free unknown, ?_⟩
    · simp [including, Host.including, Host.note, step.same]
    · simpa [names, including] using step.names_nodup.concat (get?_eq_none_iff.mp missing)
  · exact False.elim (fresh renewed)
  · rwa [failed]

theorem InStep.unregister (step : r.InStep) (name : String) : (r.unregister name).state.InStep := by
  cases listed : r.get? name with
  | none => simpa [Registry.unregister, listed] using step
  | some who =>
    rcases unregister_cases step.sound listed with ⟨-, off⟩ | ⟨unknown, -⟩
    · rw [off]
      refine ⟨?_, step.sound.without who, ?_⟩
      · simp only [step.filter_name_eq listed, Host.without, step.same, List.filter_map]
        rfl
      · exact step.names_nodup.sublist (List.filter_sublist.map _)
    · rw [step.knows_of_get? listed] at unknown
      cases unknown

end Calls

end SearchBar.Registry
