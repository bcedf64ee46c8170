import SearchBar.Proofs.Part.Longest

namespace SearchBar.Part

def Leads (part : Part) (text : Text) : Prop :=
  ∃ value, part.Allows value ∧ text <+: value

/-- An empty list of texts is exact: it says that no value goes on from the text. -/
def ExactOffer (part : Part) (text : Text) : Offer → Prop
  | .values texts =>
    (∀ value ∈ texts, part.Allows value ∧ text <+: value) ∧ (texts = [] → ¬ part.Leads text)
  | .placeholder _ => ¬ part.Allows text ∧ part.Leads text

theorem digits_leads {count : Nat} {name text : Text} (short : text.length ≤ count)
    (inside : text.all Char.isDigit = true) : (digits count name).Leads text := by
  refine ⟨text ++ List.replicate (count - text.length) '0', ⟨?_, ?_⟩, List.prefix_append _ _⟩
  · rw [List.length_append, List.length_replicate]
    omega
  · rw [List.all_append, inside, List.all_replicate]
    simp

theorem allows_number_of_leads {name text : Text} (leads : (number name).Leads text)
    (nonempty : text ≠ []) : (number name).Allows text := by
  obtain ⟨value, allowed, rest, rfl⟩ := leads
  have inside := (Bool.and_eq_true_iff.mp allowed).2
  rw [List.all_append, Bool.and_eq_true] at inside
  show isNumeral text = true
  simp [isNumeral, nonempty, inside.1]

theorem all_of_digits_leads {count : Nat} {name text : Text}
    (leads : (digits count name).Leads text) :
    text.length ≤ count ∧ text.all Char.isDigit = true := by
  obtain ⟨value, allowed, rest, rfl⟩ := leads
  have length := allowed.1
  have inside := allowed.2
  rw [List.length_append] at length
  rw [List.all_append, Bool.and_eq_true] at inside
  exact ⟨by omega, inside.1⟩

theorem literal_offer (word text : Text) :
    (literal word).ExactOffer text ((literal word).completions text) := by
  by_cases begins : text <+: word
  · have offered : (literal word).completions text = .values [word] := by
      simp [completions, begins]
    rw [offered]
    refine ⟨?_, fun empty => by cases empty⟩
    intro value member
    rw [List.mem_singleton.mp member]
    exact ⟨rfl, begins⟩
  · have offered : (literal word).completions text = .values [] := by
      simp [completions, begins]
    rw [offered]
    refine ⟨List.forall_mem_nil _, ?_⟩
    rintro - ⟨value, rfl, prefixed⟩
    exact begins prefixed

theorem options_offer (choices : List Text) (text : Text) :
    (options choices).ExactOffer text ((options choices).completions text) := by
  constructor
  · intro value member
    obtain ⟨choice, begins⟩ := List.mem_filter.mp member
    exact ⟨choice, by simpa using begins⟩
  · rintro empty ⟨value, allowed, begins⟩
    have member : value ∈ choices.filter (text.isPrefixOf ·) :=
      List.mem_filter.mpr ⟨allowed, by simpa using begins⟩
    rw [empty] at member
    cases member

theorem number_offer (name text : Text) :
    (number name).ExactOffer text ((number name).completions text) := by
  by_cases empty : text = []
  · subst empty
    refine ⟨?_, ['0'], rfl, List.nil_prefix⟩
    intro allowed
    cases allowed
  · by_cases numeral : isNumeral text = true
    · have offered : (number name).completions text = .values [text] := by
        simp [completions, empty, numeral]
      rw [offered]
      refine ⟨?_, fun none => by cases none⟩
      intro value member
      rw [List.mem_singleton.mp member]
      exact ⟨numeral, List.prefix_refl _⟩
    · have offered : (number name).completions text = .values [] := by
        simp [completions, empty, numeral]
      rw [offered]
      exact ⟨List.forall_mem_nil _,
        fun _ leads => numeral (allows_number_of_leads leads empty)⟩

theorem digits_offer {count : Nat} (positive : 0 < count) (name text : Text) :
    (digits count name).ExactOffer text ((digits count name).completions text) := by
  by_cases full : text.length = count ∧ isNumeral text = true
  · have offered : (digits count name).completions text = .values [text] := by
      simp [completions, full.1, full.2]
    rw [offered]
    refine ⟨?_, fun none => by cases none⟩
    intro value member
    rw [List.mem_singleton.mp member]
    exact ⟨⟨full.1, (Bool.and_eq_true_iff.mp full.2).2⟩, List.prefix_refl _⟩
  · by_cases short : text.length < count ∧ (text = [] ∨ isNumeral text = true)
    · have offered : ∃ label, (digits count name).completions text = .placeholder label := by
        simp [completions, full, short]
      obtain ⟨label, offered⟩ := offered
      rw [offered]
      have inside : text.all Char.isDigit = true := by
        rcases short.2 with empty | numeral
        · simp [empty]
        · exact (Bool.and_eq_true_iff.mp numeral).2
      refine ⟨?_, digits_leads (Nat.le_of_lt short.1) inside⟩
      intro allowed
      exact Nat.ne_of_lt short.1 allowed.1
    · have offered : (digits count name).completions text = .values [] := by
        simp [completions, full, short]
      rw [offered]
      refine ⟨List.forall_mem_nil _, fun _ leads => ?_⟩
      obtain ⟨bound, inside⟩ := all_of_digits_leads leads
      by_cases empty : text = []
      · exact short ⟨by simp [empty, positive], .inl empty⟩
      · have numeral : isNumeral text = true := by simp [isNumeral, empty, inside]
        rcases Nat.lt_or_eq_of_le bound with less | same
        · exact short ⟨less, .inr numeral⟩
        · exact full ⟨same, numeral⟩

/-- Every text that is the beginning of a value is the beginning of one that is on offer. -/
theorem completions_exact {part : Part} (valid : part.Valid) (text : Text) :
    part.ExactOffer text (part.completions text) := by
  cases part with
  | literal word => exact literal_offer word text
  | options choices => exact options_offer choices text
  | number name => exact number_offer name text
  | digits count name => exact digits_offer valid.1 name text

/-- A part whose value a text does not begin with is begun by the proper beginnings of its
values. -/
theorem isBegun_iff {part : Part} (valid : part.Valid) {text : Text}
    (untaken : part.consume? text = none) :
    part.isBegun text = true ↔ text ≠ [] ∧ part.Leads text := by
  have nowhere := (consume?_eq_none_iff valid).mp untaken
  have longer : ∀ value, part.Allows value → text <+: value → text.length < value.length := by
    intro value allowed begins
    apply Nat.lt_of_le_of_ne begins.length_le
    intro same
    exact nowhere value allowed (begins.eq_of_length same ▸ List.prefix_refl _)
  cases part with
  | literal word =>
    constructor
    · intro begun
      simp only [isBegun, Bool.and_eq_true, Bool.not_eq_true', List.isEmpty_eq_false_iff,
        List.isPrefixOf_iff_prefix] at begun
      exact ⟨begun.1.1, word, rfl, begun.2⟩
    · rintro ⟨nonempty, value, rfl, begins⟩
      simp [isBegun, nonempty, begins, longer value rfl begins]
  | options choices =>
    constructor
    · intro begun
      simp only [isBegun, Bool.and_eq_true, Bool.not_eq_true', List.isEmpty_eq_false_iff,
        List.any_eq_true, List.isPrefixOf_iff_prefix] at begun
      obtain ⟨nonempty, choice, member, -, begins⟩ := begun
      exact ⟨nonempty, choice, member, begins⟩
    · rintro ⟨nonempty, value, allowed, begins⟩
      have found : ∃ choice ∈ choices, text.length < choice.length ∧ text <+: choice :=
        ⟨value, allowed, longer value allowed begins, begins⟩
      simpa [isBegun, nonempty] using found
  | number name =>
    constructor
    · intro begun; cases begun
    · rintro ⟨nonempty, leads⟩
      exact False.elim
        (nowhere text (allows_number_of_leads leads nonempty) (List.prefix_refl _))
  | digits count name =>
    constructor
    · intro begun
      simp only [isBegun, isNumeral, Bool.and_eq_true, decide_eq_true_eq, Bool.not_eq_true',
        List.isEmpty_eq_false_iff] at begun
      exact ⟨begun.2.1, digits_leads (Nat.le_of_lt begun.1) begun.2.2⟩
    · rintro ⟨nonempty, value, allowed, begins⟩
      have less : text.length < count := allowed.1 ▸ longer value allowed begins
      have inside := (all_of_digits_leads ⟨value, allowed, begins⟩).2
      simp [isBegun, isNumeral, less, nonempty, inside]

theorem leads_nil {part : Part} (valid : part.Valid) : part.Leads [] := by
  cases part with
  | literal word => exact ⟨word, rfl, List.nil_prefix⟩
  | options choices =>
    obtain ⟨choice, member⟩ := List.exists_mem_of_ne_nil choices valid.1
    exact ⟨choice, member, List.nil_prefix⟩
  | number name => exact ⟨['0'], rfl, List.nil_prefix⟩
  | digits count name => exact digits_leads (Nat.zero_le _) rfl

structure Awaits (part : Part) (text : Text) : Prop where
  stuck : ∀ value, part.Allows value → ¬ value <+: text
  leads : part.Leads text

def listing : Part → List Text
  | literal text => [text]
  | options choices => choices
  | number _ | digits _ _ => []

def goingOn (part : Part) (text : Text) : List Text :=
  part.listing.filter (text.isPrefixOf ·)

variable {part : Part} {text : Text} {texts : List Text}

theorem awaits_nil (valid : part.Valid) : part.Awaits [] :=
  ⟨fun _ allowed begins => ne_nil_of_allows valid allowed (List.prefix_nil.mp begins),
    leads_nil valid⟩

theorem isLabelWritable_of_listed (listed : part.placeholder? = none) :
    part.isLabelWritable = true := by
  cases part with
  | digits count name => cases listed
  | _ => rfl

theorem completions_of_listed (listed : part.placeholder? = none) (text : Text) :
    part.completions text = .values (part.goingOn text) := by
  cases part with
  | literal word =>
    by_cases begins : text <+: word <;> simp [completions, goingOn, listing, begins]
  | options choices => rfl
  | number name => cases listed
  | digits count name => cases listed

/-- A part that waits for the rest of a value offers its label if it has one, and otherwise every
listed value that goes on. -/
theorem completions_of_awaits (awaits : part.Awaits text) : part.completions text =
    match part.placeholder? with
    | some label => .placeholder label
    | none => .values (part.goingOn text) := by
  cases part with
  | literal word => exact completions_of_listed rfl text
  | options choices => exact completions_of_listed rfl text
  | number name =>
    by_cases empty : text = []
    · simp [completions, placeholder?, empty]
    · have allowed := allows_number_of_leads awaits.leads empty
      exact False.elim (awaits.stuck text allowed (List.prefix_refl text))
  | digits count name =>
    obtain ⟨bound, inside⟩ := all_of_digits_leads awaits.leads
    have shorter : text.length < count := by
      apply Nat.lt_of_le_of_ne bound
      intro full
      exact awaits.stuck text ⟨full, inside⟩ (List.prefix_refl text)
    have numeral : text = [] ∨ isNumeral text = true := by
      by_cases empty : text = []
      · exact .inl empty
      · exact .inr (by simp [isNumeral, empty, inside])
    simp [completions, placeholder?, Nat.ne_of_lt shorter, shorter, numeral]

theorem mem_goingOn (named : part.placeholder? = none) {value : Text} (allowed : part.Allows value)
    (begins : text <+: value) : value ∈ part.goingOn text := by
  cases part with
  | literal word =>
    obtain rfl : value = word := allowed
    simpa [goingOn, listing] using begins
  | options choices => exact List.mem_filter.mpr ⟨allowed, by simpa using begins⟩
  | number name => cases named
  | digits count name => cases named

theorem mem_of_completions (awaits : part.Awaits text)
    (offered : part.completions text = .values texts) {value : Text} (allowed : part.Allows value)
    (begins : text <+: value) : value ∈ texts := by
  rw [completions_of_awaits awaits] at offered
  cases named : part.placeholder? with
  | none =>
    rw [named] at offered
    cases offered
    exact mem_goingOn named allowed begins
  | some label =>
    rw [named] at offered
    cases offered

theorem completions_nodup (valid : part.Valid) (offered : part.completions text = .values texts) :
    texts.Nodup := by
  cases part with
  | literal word =>
    cases offered
    split <;> simp
  | options choices =>
    cases offered
    exact valid.2.2.filter _
  | number name =>
    simp only [completions] at offered
    split at offered
    · cases offered
    · cases offered
      split <;> simp
  | digits count name =>
    simp only [completions] at offered
    split at offered
    · cases offered
      simp
    · split at offered
      · cases offered
      · cases offered
        simp

end SearchBar.Part
