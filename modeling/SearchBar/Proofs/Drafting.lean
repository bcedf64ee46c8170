import SearchBar.Proofs.Suggesting

/-! Drafts on the way to a filter.
A draft that some text behind it makes a filter has suggestions, with one exception: it may
break off inside an option whose beginning is an option too. The part then takes the shorter
one, and the parts after it may have no use for what the draft has beyond it. -/
namespace SearchBar

/-- The draft breaks off inside the option `longer` of the whole text, where its part takes
`shorter` and the parts after it cannot go on; the pieces in front of it are typed in full. -/
inductive Stranded : List Part → Text → List Text → Prop where
  | here {choices : List Text} {parts : List Part} {shorter typed longer : Text}
      {pieces : List Text} :
      (Part.options choices).Longest (shorter ++ typed) shorter → typed ≠ [] →
        shorter ++ typed <+: longer → shorter ++ typed ≠ longer → ¬ Viable parts typed →
          Stranded (.options choices :: parts) (shorter ++ typed) (longer :: pieces)
  | behind {part : Part} {parts : List Part} {draft piece : Text} {pieces : List Text} :
      Stranded parts draft pieces → Stranded (part :: parts) (piece ++ draft) (piece :: pieces)

variable {part : Part} {parts : List Part} {draft more piece : Text} {pieces : List Text}

/-- Inside a value, only options let a part take less than is typed and leave something. -/
theorem stranded_of_inside (valid : part.Valid) (allowed : part.Allows piece)
    (begins : draft <+: piece) (inside : draft.length < piece.length) {shorter : Text}
    (longest : part.Longest draft shorter) (unfit : ¬ Viable parts (draft.drop shorter.length)) :
    Stranded (part :: parts) draft (piece :: pieces) := by
  have whole := longest.append_drop
  have unread : draft.drop shorter.length ≠ [] := fun empty => unfit (empty ▸ viable_nil parts)
  have bound := longest.begins.length_le
  cases part with
  | literal word =>
    have same : shorter = piece := longest.allowed.trans allowed.symm
    rw [same] at bound
    omega
  | options choices =>
    have distinct : draft ≠ piece := fun same => Nat.ne_of_lt inside (congrArg List.length same)
    rw [← whole] at longest begins distinct ⊢
    exact .here longest unread begins distinct unfit
  | number name =>
    have nonempty : draft ≠ [] := by
      intro empty
      simp [empty] at unread
    have numeral := Part.allows_number_of_leads ⟨piece, allowed, begins⟩ nonempty
    have all := longest.greatest draft numeral (List.prefix_refl draft)
    rw [Ne, List.drop_eq_nil_iff] at unread
    exact False.elim (unread all)
  | digits count name =>
    have same : shorter.length = piece.length := longest.allowed.1.trans allowed.1.symm
    omega

theorem stranded_of_not_viable (valid : ∀ p ∈ parts, p.Valid)
    (reads : Reads parts (draft ++ more) pieces []) (unfit : ¬ Viable parts draft) :
    Stranded parts draft pieces := by
  induction parts generalizing draft pieces with
  | nil =>
    generalize whole : draft ++ more = text at reads
    cases reads
    rw [(List.append_eq_nil_iff.mp whole).1] at unfit
    exact False.elim (unfit (viable_nil []))
  | cons part parts ih =>
    obtain ⟨first, others⟩ := List.forall_mem_cons.mp valid
    cases reads with
    | @take _ _ _ piece _ pieces longest tail =>
      by_cases typed : piece.length ≤ draft.length
      · -- the draft holds the piece, so the part takes it from the draft as well
        have within := List.prefix_of_prefix_length_le longest.begins
          (List.prefix_append draft more) typed
        have taken := longest.of_append within
        have read : Reads [part] draft [piece] (draft.drop piece.length) :=
          .take taken (.done _)
        rw [List.drop_append_of_le_length typed] at tail
        have rest := ih others tail ((viable_append_iff valid read).not.mp unfit)
        rw [← taken.append_drop]
        exact .behind rest
      · have inside : draft.length < piece.length := Nat.lt_of_not_le typed
        have begins := List.prefix_of_prefix_length_le (List.prefix_append draft more)
          longest.begins (Nat.le_of_lt inside)
        cases taken : part.consume? draft with
        | none =>
          have stuck := (Part.consume?_eq_none_iff first).mp taken
          exact False.elim (unfit (viable_of_leads ⟨piece, longest.allowed, begins⟩ stuck))
        | some n =>
          obtain ⟨shorter, least, -⟩ := (Part.consume?_eq_some_iff first).mp taken
          have read : Reads [part] draft [shorter] (draft.drop shorter.length) :=
            .take least (.done _)
          exact stranded_of_inside first longest.allowed begins inside least
            ((viable_append_iff valid read).not.mp unfit)

theorem Stranded.not_viable (stranded : Stranded parts draft pieces)
    (valid : ∀ p ∈ parts, p.Valid) (reads : Reads parts (draft ++ more) pieces []) :
    ¬ Viable parts draft := by
  induction stranded with
  | @here choices parts shorter typed longer pieces longest _ _ _ unfit =>
    have read : Reads [.options choices] (shorter ++ typed) [shorter] typed := by
      apply Reads.take longest
      rw [List.drop_left]
      exact .done typed
    exact (viable_append_iff valid read).not.mpr unfit
  | @behind part parts draft piece pieces _ ih =>
    cases reads with
    | take longest tail =>
      rw [List.append_assoc] at longest tail
      rw [List.drop_left] at tail
      have taken : part.Longest (piece ++ draft) piece := by
        rw [← List.append_assoc] at longest
        exact longest.of_append (List.prefix_append piece draft)
      have read : Reads [part] (piece ++ draft) [piece] draft := by
        apply Reads.take taken
        rw [List.drop_left]
        exact .done draft
      have rest := ih (fun p hp => valid p (List.mem_cons_of_mem part hp)) tail
      exact (viable_append_iff valid read).not.mpr rest

/-- A draft with a filter ahead of it is lost, and has no suggestions, exactly if it is
stranded. Suggestions can be made unless the filter is too long for its length to be written. -/
theorem suggest_eq_nil_iff_stranded {d : Definition} {draft more : Text}
    (accepted : d.accepts (draft ++ more) = true) :
    ∃ pieces, d.pieces? (draft ++ more) = some pieces ∧
      ((d.scan draft).state.IsLost ↔ Stranded d.grammar draft pieces) ∧
      (suggest [d] draft = .ok [] ↔ Stranded d.grammar draft pieces) ∧
      (Text.isWritable (draft ++ more).length = true →
        ∃ offered, suggest [d] draft = .ok offered) := by
  obtain ⟨pieces, reads⟩ := Definition.accepts_iff.mp accepted
  have stranded_iff : ¬ Viable d.grammar draft ↔ Stranded d.grammar draft pieces :=
    ⟨stranded_of_not_viable d.grammar_valid reads,
      fun stranded => stranded.not_viable d.grammar_valid reads⟩
  have lost_iff : (d.scan draft).state.IsLost ↔ ¬ Viable d.grammar draft :=
    isLost_iff_not_viable d.grammar_valid 0 0 0
  refine ⟨pieces, Definition.pieces?_eq_some_iff.mpr reads, lost_iff.trans stranded_iff, ?_, ?_⟩
  · rw [← stranded_iff, suggest_singleton]
    constructor
    · intro given
      split at given
      · have none := (foldl_addNew_eq_nil_iff _).mp (Except.ok.inj given)
        exact (d.suggestions_eq_nil_iff draft).mp none
      · cases given
    · intro unfit
      have writable : d.labelsWritable draft (d.scan draft) = true :=
        Definition.labelsWritable_of_isLost (lost_iff.mpr unfit)
      rw [if_pos writable, (d.suggestions_eq_nil_iff draft).mpr unfit]
      rfl
  · intro short
    have writable : ∀ part ∈ d.grammar, part.isLabelWritable = true := by
      intro part member
      obtain ⟨piece, among, allowed⟩ := reads.fits.exists_piece member
      have whole := reads.flatten_append
      rw [List.append_nil] at whole
      have bound := (List.sublist_flatten_of_mem among).length_le
      rw [whole] at bound
      exact Part.isLabelWritable_of_allows allowed (Text.isWritable_of_le bound short)
    rw [suggest_singleton, if_pos (Definition.labelsWritable_of_forall writable _ _)]
    exact ⟨_, rfl⟩

def direction : Definition where
  tag := 0
  id := "direction"
  name := "Direction"
  grammar := [.options [['i', 'n'], ['i', 'n', 't', 'o']], .literal ['=']]
  description := none
  source := none
  factory := none
  grammar_ne_nil := by decide
  grammar_valid := by decide

theorem direction_stranded :
    direction.accepts (['i', 'n', 't'] ++ ['o', '=']) = true ∧
      Stranded direction.grammar ['i', 'n', 't'] [['i', 'n', 't', 'o'], ['=']] := by
  have accepted : direction.accepts (['i', 'n', 't'] ++ ['o', '=']) = true := rfl
  obtain ⟨pieces, split, -, offers, -⟩ := suggest_eq_nil_iff_stranded accepted
  have known : direction.pieces? (['i', 'n', 't'] ++ ['o', '=']) =
      some [['i', 'n', 't', 'o'], ['=']] := rfl
  rw [known] at split
  cases split
  exact ⟨accepted, offers.mp rfl⟩

/-- Three letters into the longer word, nothing is suggested for what two more make a filter. -/
theorem direction_blank :
    direction.accepts (['i', 'n', 't'] ++ ['o', '=']) = true ∧
      suggest [direction] ['i', 'n', 't'] = .ok [] ∧
      (direction.scan ['i', 'n', 't']).state = .unmatched :=
  ⟨rfl, rfl, rfl⟩

end SearchBar
