import SearchBar.Plugin.Host
import Mathlib.Data.List.Nodup

namespace SearchBar

namespace Host

structure Sound (h : Host) : Prop where
  names_nodup : (h.names.map (·.1)).Nodup
  plugins_nodup : (h.names.map (·.2)).Nodup
  hooked_known : ∀ who ∈ h.hooked, h.knows who = true

def note (h : Host) (who : PluginId) (name : String) : Host :=
  { h with names := h.names ++ [(hostName who name, who)] }

def including (h : Host) (who : PluginId) (name : String) (hook : Hook) : Host :=
  { h.note who name with hooked := h.hooked ++ if hook = .marked then [who] else [] }

def without (h : Host) (who : PluginId) : Host :=
  ⟨h.names.filter (·.2 != who), h.hooked.filter (· != who)⟩

variable {h : Host} {who other : PluginId} {name : String} {hook : Hook}

theorem knows_iff : h.knows who = true ↔ who ∈ h.names.map (·.2) := by
  simp [knows]

theorem name_of_hostName {used : String} (same : hostName who name = hostName other used) :
    name = used := by
  unfold hostName at same
  split at same <;> split at same
  · rename_i blank empty
    rw [String.isEmpty_iff.mp blank, String.isEmpty_iff.mp empty]
  · cases same
  · cases same
  · exact HostName.named.inj same

theorem knows_eq_false_iff : h.knows who = false ↔ who ∉ h.names.map (·.2) := by
  rw [← knows_iff, Bool.not_eq_true]

theorem knows_including : (h.including who name hook).knows other = true ↔
    h.knows other = true ∨ other = who := by
  rw [knows_iff, knows_iff]
  simp [including, note]

theorem knows_without_self : (h.without who).knows who = false := by
  simp [knows, without]

theorem any_names_eq_false {key : HostName} (free : key ∉ h.names.map (·.1)) :
    h.names.any (·.1 == key) = false := by
  refine Bool.eq_false_iff.mpr fun used => free ?_
  simpa using used

theorem unregister_unknown (unknown : h.knows who = false) :
    h.unregister who = .error .notKnown := by
  have missing : h.names.find? (·.2 == who) = none := by
    apply List.find?_eq_none.mpr
    intro entry member same
    exact knows_eq_false_iff.mp unknown (List.mem_map.mpr ⟨entry, member, by simpa using same⟩)
  simp only [unregister, missing]

theorem without_note (unknown : h.knows who = false) (hooked : ∀ other ∈ h.hooked, h.knows other) :
    (h.note who name).without who = h := by
  have stay : h.names.filter (·.2 != who) = h.names := by
    apply List.filter_eq_self.mpr
    intro entry member
    have apart : entry.2 ≠ who := fun same =>
      knows_eq_false_iff.mp unknown (List.mem_map.mpr ⟨entry, member, same⟩)
    simpa using apart
  have called : h.hooked.filter (· != who) = h.hooked := by
    apply List.filter_eq_self.mpr
    intro other member
    have apart : other ≠ who := by
      rintro rfl
      rw [hooked other member] at unknown
      cases unknown
    simpa using apart
  simp only [without, note, List.filter_append, stay, called]
  simp

theorem sound_empty : Host.empty.Sound :=
  ⟨List.nodup_nil, List.nodup_nil, List.forall_mem_nil _⟩

namespace Sound

theorem including (sound : h.Sound) (free : hostName who name ∉ h.names.map (·.1))
    (unknown : h.knows who = false) : (h.including who name hook).Sound where
  names_nodup := by
    simpa [Host.including, note] using sound.names_nodup.concat free
  plugins_nodup := by
    simpa [Host.including, note] using sound.plugins_nodup.concat (knows_eq_false_iff.mp unknown)
  hooked_known := by
    intro other called
    apply knows_including.mpr
    rcases List.mem_append.mp called with old | new
    · exact .inl (sound.hooked_known other old)
    · split at new
      · exact .inr (List.mem_singleton.mp new)
      · cases new

theorem without (sound : h.Sound) (who : PluginId) : (h.without who).Sound where
  names_nodup := sound.names_nodup.sublist (List.filter_sublist.map _)
  plugins_nodup := sound.plugins_nodup.sublist (List.filter_sublist.map _)
  hooked_known := by
    intro other called
    obtain ⟨old, apart⟩ := List.mem_filter.mp called
    obtain ⟨entry, member, rfl⟩ := List.mem_map.mp (knows_iff.mp (sound.hooked_known other old))
    exact knows_iff.mpr (List.mem_map_of_mem (List.mem_filter.mpr ⟨member, apart⟩))

theorem name_eq_iff (sound : h.Sound) {a b : HostName × PluginId} (ma : a ∈ h.names)
    (mb : b ∈ h.names) : a.1 = b.1 ↔ a.2 = b.2 := by
  constructor
  · intro same
    rw [List.inj_on_of_nodup_map sound.names_nodup ma mb same]
  · intro same
    rw [List.inj_on_of_nodup_map sound.plugins_nodup ma mb same]

theorem unregister_eq (sound : h.Sound) (known : h.knows who = true) :
    h.unregister who = .ok (h.without who) := by
  cases found : h.names.find? (·.2 == who) with
  | none =>
    obtain ⟨entry, member, rfl⟩ := List.mem_map.mp (knows_iff.mp known)
    exact False.elim (List.find?_eq_none.mp found entry member (beq_self_eq_true _))
  | some entry =>
    have member := List.mem_of_find?_eq_some found
    obtain rfl : entry.2 = who := by simpa using List.find?_some found
    have same : h.names.filter (·.1 != entry.1) = h.names.filter (·.2 != entry.2) := by
      apply List.filter_congr
      intro e among
      rw [Bool.eq_iff_iff, bne_iff_ne, bne_iff_ne]
      exact not_congr (sound.name_eq_iff among member)
    simp only [unregister, found, same]
    rfl

end Sound

end Host

/-- Known plugins and used names are refused. Any other plugin is noted before its hook is looked
at, and stays so where that is malformed. What the host knows it can forget. -/
class LawfulPluginHost [PluginHost] : Prop where
  refuses {h : Host} {who : PluginId} {name : String} (hook : Hook) :
    h.knows who = true ∨ Host.hostName who name ∈ h.names.map (·.1) →
      ∃ reason, PluginHost.register h who name hook = (.error reason, h)
  notes {h : Host} {who : PluginId} {name : String} : h.knows who = false →
    Host.hostName who name ∉ h.names.map (·.1) →
      ∃ reason, PluginHost.register h who name .malformed = (.error reason, h.note who name)
  admits {h : Host} {who : PluginId} {name : String} {hook : Hook} : h.knows who = false →
    Host.hostName who name ∉ h.names.map (·.1) → hook ≠ .malformed →
      PluginHost.register h who name hook = (.ok (), h.including who name hook)
  misses {h : Host} {who : PluginId} : h.knows who = false →
    ∃ reason, PluginHost.unregister h who = .error reason
  forgets {h : Host} {who : PluginId} : h.Sound → h.knows who = true →
    PluginHost.unregister h who = .ok (h.without who)

instance : LawfulPluginHost where
  refuses {h who name} hook refused := by
    show ∃ reason, h.register who name hook = (.error reason, h)
    by_cases used : h.names.any (·.1 == Host.hostName who name) = true
    · exact ⟨.nameTaken, by simp only [Host.register, used, if_true]⟩
    · have known : h.knows who = true := refused.resolve_right (by simpa using used)
      exact ⟨.alreadyKnown, by simp [Host.register, used, known]⟩
  notes {h who name} unknown free :=
    ⟨.malformedHook, by
      show h.register who name .malformed = _
      simp [Host.register, Host.note, Host.any_names_eq_false free, unknown]⟩
  admits {h who name hook} unknown free fine := by
    show h.register who name hook = _
    cases hook with
    | malformed => exact absurd rfl fine
    | marked =>
      simp [Host.register, Host.including, Host.note, Host.any_names_eq_false free, unknown]
    | unmarked =>
      simp [Host.register, Host.including, Host.note, Host.any_names_eq_false free, unknown]
  misses unknown := ⟨_, Host.unregister_unknown unknown⟩
  forgets sound known := sound.unregister_eq known

namespace PluginHost

variable [PluginHost] [LawfulPluginHost]

theorem register_cases (h : Host) (who : PluginId) (name : String) (hook : Hook) :
    (∃ reason, register h who name hook = (.error reason, h)) ∧
        (h.knows who = true ∨ Host.hostName who name ∈ h.names.map (·.1)) ∨
    (h.knows who = false ∧ Host.hostName who name ∉ h.names.map (·.1)) ∧
      ((hook = .malformed ∧
          ∃ reason, register h who name hook = (.error reason, h.note who name)) ∨
        hook ≠ .malformed ∧ register h who name hook = (.ok (), h.including who name hook)) := by
  by_cases refused : h.knows who = true ∨ Host.hostName who name ∈ h.names.map (·.1)
  · exact .inl ⟨LawfulPluginHost.refuses hook refused, refused⟩
  · obtain ⟨unknown, free⟩ := not_or.mp refused
    rw [Bool.not_eq_true] at unknown
    refine .inr ⟨⟨unknown, free⟩, ?_⟩
    by_cases malformed : hook = .malformed
    · subst malformed
      exact .inl ⟨rfl, LawfulPluginHost.notes unknown free⟩
    · exact .inr ⟨malformed, LawfulPluginHost.admits unknown free malformed⟩

theorem unregister_note {h : Host} {who : PluginId} {name : String} (sound : h.Sound)
    (free : Host.hostName who name ∉ h.names.map (·.1)) (unknown : h.knows who = false) :
    unregister (h.note who name) who = .ok h := by
  -- a host that only notes the plugin is the one that takes it in without a hook
  have whole : (h.including who name .unmarked).Sound := sound.including free unknown
  have noted : (h.note who name).Sound := by
    simpa [Host.including, Host.note] using whole
  have known : (h.note who name).knows who = true := by simp [Host.knows, Host.note]
  rw [LawfulPluginHost.forgets noted known, Host.without_note unknown sound.hooked_known]

end PluginHost
end SearchBar
