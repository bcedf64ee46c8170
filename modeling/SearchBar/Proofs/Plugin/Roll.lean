import SearchBar.Proofs.Plugin.History
import Mathlib.Data.List.Induction

namespace SearchBar.Registry

/-- A plugin comes, as the plugins are then, or a name is taken off the list. -/
inductive Change where
  | enter (now : Roster) (who : PluginId)
  | leave (name : String)

namespace Change

def call : Change → Call
  | enter now who => .register now who
  | leave name => .unregister name

def KeepsName (roster : Roster) : Change → Prop
  | enter now who => (now who).name = (roster who).name
  | leave _ => True

instance (roster : Roster) : DecidablePred (KeepsName roster)
  | enter now who => inferInstanceAs (Decidable ((now who).name = (roster who).name))
  | leave _ => inferInstanceAs (Decidable True)

/-- What a change makes of the plugins on the list, with the host left aside. -/
def apply (roster : Roster) (roll : List PluginId) : Change → List PluginId
  | enter now who =>
    if (roster who).name ∈ none :: roll.map (fun other => (roster other).name) ∨
        (now who).hook = .malformed then roll
    else roll ++ [who]
  | leave name => roll.filter fun who => (roster who).name != some name

end Change

def roll (roster : Roster) (changes : List Change) : List PluginId :=
  changes.foldl (Change.apply roster) []

variable {r : Registry} {roster now : Roster} {who : PluginId} {name : String} {change : Change}
  {changes : List Change}

theorem roll_concat :
    roll roster (changes ++ [change]) = change.apply roster (roll roster changes) := by
  simp only [roll, List.foldl_append, List.foldl_cons, List.foldl_nil]

def plugins (r : Registry) : List PluginId :=
  r.listed.map (·.2)

structure Named (r : Registry) (roster : Roster) : Prop where
  step : r.InStep
  name_eq : ∀ entry ∈ r.listed, (roster entry.2).name = some entry.1

namespace Named

theorem empty : Registry.empty.Named roster :=
  ⟨.empty, List.forall_mem_nil _⟩

theorem map_name (named : r.Named roster) :
    r.plugins.map (fun who => (roster who).name) = r.names.map some := by
  rw [plugins, names, List.map_map, List.map_map]
  exact List.map_congr_left named.name_eq

theorem mem_names_of_knows (named : r.Named roster) (known : r.host.knows who = true)
    (own : (roster who).name = some name) : name ∈ r.names := by
  obtain ⟨entry, member, rfl⟩ := List.mem_map.mp (named.step.knows_iff.mp known)
  obtain rfl : entry.1 = name := Option.some.inj ((named.name_eq entry member).symm.trans own)
  exact List.mem_map_of_mem member

theorem not_renews (named : r.Named roster) (kept : (now who).name = (roster who).name) :
    ¬ r.Renews now who := by
  rintro ⟨known, name, own, missing⟩
  exact get?_eq_none_iff.mp missing (named.mem_names_of_knows known (kept.symm.trans own))

end Named

section Changes

variable [PluginHost]

def after (changes : List Change) : Registry :=
  changes.foldl (fun r change => change.call.run r) .empty

theorem after_concat : after (changes ++ [change]) = change.call.run (after changes) := by
  simp only [after, List.foldl_append, List.foldl_cons, List.foldl_nil]

variable [LawfulPluginHost]

namespace Named

/-- The host has no reason of its own to refuse a plugin but a malformed hook. -/
theorem register_cases (named : r.Named roster) (kept : (now who).name = (roster who).name) :
    ((roster who).name ∈ none :: r.names.map some ∨ (now who).hook = .malformed) ∧
        (r.register now who).state = r ∨
      ∃ name, (roster who).name = some name ∧ name ∉ r.names ∧ (now who).hook ≠ .malformed ∧
        (r.register now who).state = r.including who name (now who).hook := by
  cases own : (roster who).name with
  | none =>
    refine .inl ⟨.inl List.mem_cons_self, ?_⟩
    simp only [register, kept, own]
  | some name =>
    by_cases listed : name ∈ r.names
    · refine .inl ⟨.inl (List.mem_cons_of_mem _ (List.mem_map_of_mem listed)), ?_⟩
      have taken : (r.get? name).isSome = true :=
        Option.isSome_iff_ne_none.mpr fun missing => get?_eq_none_iff.mp missing listed
      simp only [register, kept, own, taken, if_true]
    · have missing := get?_eq_none_iff.mpr listed
      rcases PluginHost.register_cases r.host who name (now who).hook with
        ⟨-, known | used⟩ | ⟨⟨unknown, free⟩, ⟨malformed, reason, noted⟩ | ⟨fine, admitted⟩⟩
      · exact False.elim (listed (named.mem_names_of_knows known own))
      · rw [named.step.same, List.map_map] at used
        obtain ⟨entry, member, same⟩ := List.mem_map.mp used
        obtain rfl := Host.name_of_hostName same
        exact False.elim (listed (List.mem_map_of_mem member))
      · refine .inl ⟨.inr malformed, ?_⟩
        simp [register, kept, own, missing, noted, afterRefusal,
          PluginHost.unregister_note named.step.sound free unknown]
      · refine .inr ⟨name, rfl, listed, fine, ?_⟩
        simp [register, kept, own, missing, admitted, including]

theorem register (named : r.Named roster) (kept : (now who).name = (roster who).name) :
    (r.register now who).state.Named roster ∧
      (r.register now who).state.plugins = (Change.enter now who).apply roster r.plugins := by
  have step := named.step.register (named.not_renews kept)
  rw [Change.apply, named.map_name]
  rcases named.register_cases kept with ⟨refused, same⟩ | ⟨name, own, fresh, fine, added⟩
  · rw [same, if_pos refused]
    exact ⟨named, rfl⟩
  · have admitted : ¬ ((roster who).name ∈ none :: r.names.map some ∨
        (now who).hook = .malformed) := by
      rw [own]
      simp [fresh, fine]
    rw [added] at step ⊢
    rw [if_neg admitted]
    refine ⟨⟨step, ?_⟩, by simp [plugins, including]⟩
    intro entry member
    rcases List.mem_append.mp member with old | new
    · exact named.name_eq entry old
    · rw [List.mem_singleton.mp new]
      exact own

theorem unregister (named : r.Named roster) (name : String) :
    (r.unregister name).state.Named roster ∧
      (r.unregister name).state.plugins = (Change.leave name).apply roster r.plugins := by
  have stay : (r.unregister name).state.listed = r.listed.filter (·.1 != name) := by
    cases listed : r.get? name with
    | none =>
      have missing := get?_eq_none_iff.mp listed
      simp only [Registry.unregister, listed]
      refine (List.filter_eq_self.mpr fun entry member => bne_iff_ne.mpr ?_).symm
      rintro rfl
      exact missing (List.mem_map_of_mem member)
    | some who =>
      rcases unregister_cases named.step.sound listed with ⟨-, off⟩ | ⟨-, off⟩ <;> rw [off]
  refine ⟨⟨named.step.unregister name, ?_⟩, ?_⟩
  · rw [stay]
    exact fun entry member => named.name_eq entry (List.mem_filter.mp member).1
  · rw [plugins, stay, Change.apply, plugins, List.filter_map]
    congr 1
    apply List.filter_congr
    intro entry member
    simp [named.name_eq entry member, bne_eq]

theorem run (named : r.Named roster) (kept : change.KeepsName roster) :
    (change.call.run r).Named roster ∧
      (change.call.run r).plugins = change.apply roster r.plugins := by
  cases change with
  | enter now who => exact named.register kept
  | leave name => exact named.unregister name

end Named

theorem named_after (kept : ∀ change ∈ changes, change.KeepsName roster) :
    (after changes).Named roster ∧ (after changes).plugins = roll roster changes := by
  induction changes using List.reverseRecOn with
  | nil => exact ⟨.empty, rfl⟩
  | append_singleton changes change ih =>
    obtain ⟨named, same⟩ := ih fun earlier member => kept earlier (List.mem_append_left _ member)
    rw [after_concat, roll_concat, ← same]
    exact named.run (kept change (by simp))

end Changes

end SearchBar.Registry
