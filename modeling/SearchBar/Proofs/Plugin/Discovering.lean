import SearchBar.Proofs.Plugin.Registering

namespace SearchBar

def EntryPoint.IsNameless (roster : Roster) (entry : EntryPoint) : Prop :=
  ∃ who, entry.offer = .ok who ∧ (roster who).name = none

namespace Registry

variable [PluginHost] {r : Registry} {roster : Roster} {who : PluginId} {entry : EntryPoint}
  {entries : List EntryPoint}

def RenewsBy (r : Registry) (roster : Roster) (entry : EntryPoint) : Prop :=
  ∃ who, entry.offer = .ok who ∧ r.Renews roster who

/-- The plugins of the entry points that succeed where only those before them that succeed have
been registered. -/
def admissions (roster : Roster) : List EntryPoint → Registry → List PluginId
  | [], _ => []
  | entry :: rest, r =>
    match entry.offer, (r.enrol roster entry).outcome with
    | .ok who, .ok () => who :: admissions roster rest (r.enrol roster entry).state
    | _, _ => admissions roster rest r

theorem admissions_cons_ok (offer : entry.offer = .ok who)
    (taken : (r.enrol roster entry).outcome = .ok ()) :
    admissions roster (entry :: entries) r =
      who :: admissions roster entries (r.enrol roster entry).state := by
  simp only [admissions, offer, taken]

theorem admissions_cons_error {fault : PluginFault}
    (failed : (r.enrol roster entry).outcome = .error fault) :
    admissions roster (entry :: entries) r = admissions roster entries r := by
  cases offer : entry.offer <;> simp only [admissions, offer, failed]

theorem enrol_of_offer (offer : entry.offer = .ok who) :
    r.enrol roster entry = r.register roster who := by
  simp only [enrol, offer]

theorem enrolAll_keeps (keeps : Registry → Prop)
    (each : ∀ entry ∈ entries, ∀ r, keeps r → keeps (r.enrol roster entry).state)
    (start : keeps r) : keeps (r.enrolAll roster entries).state := by
  induction entries generalizing r with
  | nil => exact start
  | cons entry entries ih =>
    obtain ⟨own, others⟩ := List.forall_mem_cons.mp each
    have first := own r start
    unfold enrolAll
    simp only
    split
    · exact ih others first
    · split
      · exact ih others first
      · exact first

variable [LawfulPluginHost]

theorem sound_enrol (sound : r.host.Sound) (roster : Roster) (entry : EntryPoint) :
    (r.enrol roster entry).state.host.Sound := by
  unfold enrol
  split
  · exact sound
  · exact sound_register sound roster _

theorem renewsBy_enrol (sound : r.host.Sound) (fresh : ¬ r.RenewsBy roster entry)
    {other : EntryPoint} (renews : (r.enrol roster entry).state.RenewsBy roster other) :
    r.RenewsBy roster other := by
  obtain ⟨who, offered, renewed⟩ := renews
  refine ⟨who, offered, ?_⟩
  unfold enrol at renewed
  split at renewed
  · exact renewed
  · rename_i own given
    exact renews_register sound (fun first => fresh ⟨own, given, first⟩) renewed

theorem InStep.enrol (step : r.InStep) (fresh : ¬ r.RenewsBy roster entry) :
    (r.enrol roster entry).state.InStep := by
  unfold Registry.enrol
  split
  · exact step
  · rename_i who given
    exact step.register fun first => fresh ⟨who, given, first⟩

theorem enrol_cases (sound : r.host.Sound) (roster : Roster) (entry : EntryPoint) :
    (∃ who name, entry.offer = .ok who ∧ (roster who).name = some name ∧
      (r.enrol roster entry).outcome = .ok () ∧
      (r.enrol roster entry).state = r.including who name (roster who).hook) ∨
    (¬ entry.IsNameless roster ∧ ∃ fault, fault.isSkipped = true ∧
      (r.enrol roster entry).outcome = .error fault ∧
      (r.enrol roster entry).state.names = r.names ∧
      (¬ r.RenewsBy roster entry → (r.enrol roster entry).state = r)) ∨
    entry.IsNameless roster ∧ r.enrol roster entry = ⟨.error .nameless, r, []⟩ := by
  cases offer : entry.offer with
  | error reason =>
    refine .inr (.inl ⟨?_, .notLoaded entry.name reason, rfl, ?_⟩)
    · rintro ⟨who, impossible, -⟩
      rw [offer] at impossible
      cases impossible
    · simp [enrol, offer]
  | ok who =>
    have nameless_iff : entry.IsNameless roster ↔ (roster who).name = none := by
      simp [EntryPoint.IsNameless, offer]
    rw [enrol_of_offer offer, nameless_iff]
    rcases register_cases sound roster who with
      ⟨name, named, -, -, -, registered⟩ | ⟨renewed, name, reason, refused⟩ |
        ⟨-, fault, failed, ⟨rfl, nameless⟩ | ⟨skipped, named⟩⟩
    · exact .inl ⟨who, name, rfl, named, by rw [registered], by rw [registered]⟩
    · refine .inr (.inl ⟨?_, _, rfl, by rw [refused], by rw [refused]; rfl, fun fresh => ?_⟩)
      · obtain ⟨-, own, named, -⟩ := renewed
        simp [named]
      · exact False.elim (fresh ⟨who, offer, renewed⟩)
    · exact .inr (.inr ⟨nameless, failed⟩)
    · rw [failed]
      exact .inr (.inl ⟨named, fault, skipped, rfl, rfl, fun _ => rfl⟩)

theorem sound_enrolAll (sound : r.host.Sound) (roster : Roster) (entries : List EntryPoint) :
    (r.enrolAll roster entries).state.host.Sound :=
  enrolAll_keeps (·.host.Sound) (fun entry _ _ first => sound_enrol first roster entry) sound

theorem InStep.enrolAll (step : r.InStep) (fresh : ∀ entry ∈ entries, ¬ r.RenewsBy roster entry) :
    (r.enrolAll roster entries).state.InStep := by
  refine (enrolAll_keeps (fun r => r.InStep ∧ ∀ entry ∈ entries, ¬ r.RenewsBy roster entry)
    ?_ ⟨step, fresh⟩).1
  rintro entry member r ⟨step, fresh⟩
  refine ⟨step.enrol (fresh entry member), fun other among renews => ?_⟩
  exact fresh other among (renewsBy_enrol step.sound (fresh entry member) renews)

/-- Discovery stops at a plugin without a name, and at nothing else. -/
theorem enrolAll_outcome (sound : r.host.Sound) (roster : Roster) (entries : List EntryPoint) :
    (∃ names, (r.enrolAll roster entries).outcome = .ok names ∧
        (r.enrolAll roster entries).state.names = r.names ++ names) ∧
        (∀ entry ∈ entries, ¬ entry.IsNameless roster) ∨
      (r.enrolAll roster entries).outcome = .error .nameless ∧
        ∃ entry ∈ entries, entry.IsNameless roster := by
  induction entries generalizing r with
  | nil => exact .inl ⟨⟨[], rfl, (List.append_nil _).symm⟩, List.forall_mem_nil _⟩
  | cons entry entries ih =>
    have rest := ih (sound_enrol sound roster entry)
    rcases enrol_cases sound roster entry with
      ⟨who, name, offer, named, taken, admitted⟩ | ⟨known, fault, skipped, failed, same, -⟩ |
        ⟨nameless, failed⟩
    · have known : ¬ entry.IsNameless roster := by simp [EntryPoint.IsNameless, offer, named]
      have longer : (r.enrol roster entry).state.names = r.names ++ [name] := by
        rw [admitted]
        simp [Registry.names, including]
      rcases rest with ⟨⟨names, found, listed⟩, others⟩ | ⟨stopped, nameless⟩
      · refine .inl ⟨⟨name :: names, ?_, ?_⟩, List.forall_mem_cons.mpr ⟨known, others⟩⟩
        · simp [enrolAll, taken, found, offeredName, offer, named, Except.map]
        · simp [enrolAll, taken, listed, longer]
      · refine .inr ⟨?_, by simp [nameless]⟩
        simp only [enrolAll, taken, stopped]
        rfl
    · rw [same] at rest
      rcases rest with ⟨found, others⟩ | ⟨stopped, nameless⟩
      · refine .inl ⟨?_, List.forall_mem_cons.mpr ⟨known, others⟩⟩
        simpa only [enrolAll, failed, skipped, if_true] using found
      · refine .inr ⟨?_, by simp [nameless]⟩
        simpa only [enrolAll, failed, skipped, if_true] using stopped
    · refine .inr ⟨?_, entry, List.mem_cons_self, nameless⟩
      simp [enrolAll, failed, PluginFault.isSkipped]

/-- Where every plugin has a name and none is offered under a new one, the registry is as if the
plugins that are taken, whose names are given, had been registered. -/
theorem enrolAll_eq_registerAll (sound : r.host.Sound)
    (known : ∀ entry ∈ entries, ¬ entry.IsNameless roster)
    (fresh : ∀ entry ∈ entries, ¬ r.RenewsBy roster entry) :
    (r.registerAll roster (admissions roster entries r)).outcome = .ok () ∧
    (r.registerAll roster (admissions roster entries r)).state =
      (r.enrolAll roster entries).state ∧
    (r.enrolAll roster entries).outcome =
      .ok ((admissions roster entries r).filterMap fun who => (roster who).name) := by
  induction entries generalizing r with
  | nil => exact ⟨rfl, rfl, rfl⟩
  | cons entry entries ih =>
    obtain ⟨own, others⟩ := List.forall_mem_cons.mp known
    obtain ⟨steady, later⟩ := List.forall_mem_cons.mp fresh
    obtain ⟨made, state_eq, found⟩ :=
      ih (sound_enrol sound roster entry) others fun other among renews =>
        later other among (renewsBy_enrol sound steady renews)
    rcases enrol_cases sound roster entry with
      ⟨who, name, offer, named, taken, -⟩ | ⟨-, fault, skipped, failed, -, kept⟩ | ⟨nameless, -⟩
    · have first : admissions roster (entry :: entries) r = who :: _ :=
        admissions_cons_ok offer taken
      refine ⟨?_, ?_, ?_⟩
      · simp only [first, registerAll, ← enrol_of_offer offer, taken, made]
      · simp only [first, registerAll, ← enrol_of_offer offer, taken, enrolAll, state_eq]
      · simp [first, enrolAll, taken, found, offeredName, offer, named, Except.map]
    · -- nothing is left of an entry point that is skipped, so the others meet the same registry
      rw [kept steady] at made state_eq found
      rw [admissions_cons_error failed]
      refine ⟨made, ?_, ?_⟩
      · simpa only [enrolAll, failed, skipped, if_true, kept steady] using state_eq
      · simpa only [enrolAll, failed, skipped, if_true, kept steady] using found
    · exact False.elim (own nameless)

end Registry
end SearchBar
