import SearchBar.Definition.Scan
import SearchBar.Proofs.Part.Offers
import SearchBar.Proofs.Reading

namespace SearchBar

/-- The parts before the stop are read; the one behind it has no value at the beginning of
what is left. -/
structure Stop (parts : List Part) (text : Text) (before after : List Part)
    (pieces : List Text) (left : Text) : Prop where
  parts_eq : parts = before ++ after
  reads : Reads before text pieces left
  stuck : left ≠ [] → ∀ part ∈ after.head?, ∀ value, part.Allows value → ¬ value <+: left

/-- The text can be typed on: it ends between two parts or inside a value. -/
def Viable (parts : List Part) (text : Text) : Prop :=
  ∃ before after pieces left, Stop parts text before after pieces left ∧
    (left = [] ∨ ∃ part ∈ after.head?, part.Leads left)

def ScanState.IsLost (state : ScanState) : Prop :=
  state = .unmatched ∨ state = .overmatched

def lastStart (position last : Nat) : List Text → Nat
  | [] => last
  | piece :: pieces => lastStart (position + piece.length) position pieces

variable {parts before after : List Part} {pieces : List Text} {text left : Text}

theorem exists_stop (valid : ∀ part ∈ parts, part.Valid) (text : Text) :
    ∃ before after pieces left, Stop parts text before after pieces left := by
  induction parts generalizing text with
  | nil =>
    exact ⟨[], [], [], text, rfl, .done text, fun _ part member => by cases member⟩
  | cons part parts ih =>
    obtain ⟨first, others⟩ := List.forall_mem_cons.mp valid
    cases taken : part.consume? text with
    | none =>
      refine ⟨[], part :: parts, [], text, rfl, .done text, ?_⟩
      intro _ p member
      cases member
      exact (Part.consume?_eq_none_iff first).mp taken
    | some n =>
      obtain ⟨piece, longest, -⟩ := (Part.consume?_eq_some_iff first).mp taken
      obtain ⟨before, after, pieces, left, stop⟩ :=
        ih others (text.drop piece.length)
      exact ⟨part :: before, after, piece :: pieces, left,
        congrArg (part :: ·) stop.parts_eq, .take longest stop.reads, stop.stuck⟩

theorem scanFrom_append (valid : ∀ part ∈ before, part.Valid)
    (reads : Reads before text pieces left) (number position last : Nat) :
    scanFrom number position last (before ++ after) text =
      scanFrom (number + before.length) (position + pieces.flatten.length)
        (lastStart position last pieces) after left := by
  induction reads generalizing number position last with
  | done => rfl
  | @take part parts text piece rest pieces longest _ ih =>
    obtain ⟨first, others⟩ := List.forall_mem_cons.mp valid
    have taken := (Part.consume?_eq_some_iff first).mpr ⟨piece, longest, rfl⟩
    have tail := ih others (number + 1) (position + piece.length) position
    cases text with
    | nil =>
      have empty := List.prefix_nil.mp longest.begins
      exact False.elim (Part.ne_nil_of_allows first longest.allowed empty)
    | cons c text =>
      simp only [List.cons_append, scanFrom, taken, tail, lastStart, List.length_cons,
        List.flatten_cons, List.length_append]
      congr 1 <;> omega

/-- Where a part takes nothing of what is left, the state tells whether it leads to a value. -/
theorem scanFrom_cons {part : Part} (first : part.Valid) (others : List Part) {c : Char}
    {rest : Text}
    (stuck : ∀ value, part.Allows value → ¬ value <+: c :: rest) (number position last : Nat) :
    (part.Leads (c :: rest) →
      scanFrom number position last (part :: others) (c :: rest) = ⟨.begun, number, position⟩) ∧
    (¬ part.Leads (c :: rest) →
      scanFrom number position last (part :: others) (c :: rest) =
        ⟨.unmatched, number, position⟩) := by
  have untaken := (Part.consume?_eq_none_iff first).mpr stuck
  have begun := Part.isBegun_iff first untaken
  constructor
  · intro leads
    simp [scanFrom, untaken, begun.mpr ⟨List.cons_ne_nil c rest, leads⟩]
  · intro lost
    have notBegun : part.isBegun (c :: rest) = false := by
      rw [Bool.eq_false_iff]
      exact fun h => lost (begun.mp h).2
    simp [scanFrom, untaken, notBegun]

namespace Stop

theorem text_eq (stop : Stop parts text before after pieces left) :
    text = pieces.flatten ++ left :=
  stop.reads.flatten_append.symm

theorem parts_valid (stop : Stop parts text before after pieces left)
    (valid : ∀ part ∈ parts, part.Valid) :
    (∀ part ∈ before, part.Valid) ∧ ∀ part ∈ after, part.Valid := by
  rw [stop.parts_eq] at valid
  exact List.forall_mem_append.mp valid

theorem scan_eq (valid : ∀ part ∈ parts, part.Valid)
    (stop : Stop parts text before after pieces left) (number position last : Nat) :
    scanFrom number position last parts text =
      scanFrom (number + before.length) (position + pieces.flatten.length)
        (lastStart position last pieces) after left := by
  obtain ⟨read, -⟩ := stop.parts_valid valid
  rw [stop.parts_eq]
  exact scanFrom_append read stop.reads number position last

theorem isLost_iff (valid : ∀ part ∈ parts, part.Valid)
    (stop : Stop parts text before after pieces left) (number position last : Nat) :
    (scanFrom number position last parts text).state.IsLost ↔
      ¬ (left = [] ∨ ∃ part ∈ after.head?, part.Leads left) := by
  rw [stop.scan_eq valid]
  have stuck := stop.stuck
  obtain ⟨-, known⟩ := stop.parts_valid valid
  cases left with
  | nil => cases after <;> simp [scanFrom, ScanState.IsLost]
  | cons c rest =>
    cases after with
    | nil => simp [scanFrom, ScanState.IsLost]
    | cons part others =>
      have ends := scanFrom_cons (known part (by simp)) others (stuck (by simp) part rfl)
        (number + before.length) (position + pieces.flatten.length)
        (lastStart position last pieces)
      by_cases leads : part.Leads (c :: rest)
      · rw [ends.1 leads]
        simp [ScanState.IsLost, leads]
      · rw [ends.2 leads]
        simp [ScanState.IsLost, leads]

theorem reads_iff (valid : ∀ part ∈ parts, part.Valid)
    (stop : Stop parts text before after pieces left) :
    (∃ all, Reads parts text all []) ↔ after = [] ∧ left = [] := by
  obtain ⟨-, known⟩ := stop.parts_valid valid
  constructor
  · rintro ⟨all, reads⟩
    rw [stop.parts_eq] at reads
    obtain ⟨back, -, tail⟩ := reads.of_append stop.reads
    cases tail with
    | done => exact ⟨rfl, rfl⟩
    | @take part others _ piece _ more longest _ =>
      have present := Part.ne_nil_of_allows (known part (by simp)) longest.allowed
      have nonempty : left ≠ [] := by
        rintro rfl
        exact present (List.prefix_nil.mp longest.begins)
      exact False.elim (stop.stuck nonempty part rfl piece longest.allowed longest.begins)
  · rintro ⟨rfl, rfl⟩
    exact ⟨pieces, by simpa [stop.parts_eq] using stop.reads⟩

end Stop

namespace Definition

variable {d : Definition} {part : Part} {others : List Part}

theorem scan_of_done (stop : Stop d.grammar text before [] pieces []) :
    d.scan text = ⟨.complete, before.length - 1, lastStart 0 0 pieces⟩ := by
  simp only [scan, stop.scan_eq d.grammar_valid, scanFrom, Nat.zero_add]

theorem stop_of_pieces? (split : d.pieces? text = some pieces) :
    Stop d.grammar text d.grammar [] pieces [] :=
  ⟨(List.append_nil _).symm, pieces?_eq_some_iff.mp split, fun more => False.elim (more rfl)⟩

theorem scan_of_pieces? (split : d.pieces? text = some pieces) :
    d.scan text = ⟨.complete, d.grammar.length - 1, lastStart 0 0 pieces⟩ :=
  scan_of_done (stop_of_pieces? split)

theorem scan_of_overrun (stop : Stop d.grammar text before [] pieces left) (more : left ≠ []) :
    d.scan text = ⟨.overmatched, before.length, pieces.flatten.length⟩ := by
  obtain ⟨c, rest, rfl⟩ := List.exists_cons_of_ne_nil more
  simp only [scan, stop.scan_eq d.grammar_valid, scanFrom, Nat.zero_add]

theorem scan_of_boundary (stop : Stop d.grammar text before (part :: others) pieces []) :
    d.scan text = ⟨.resolved, before.length, pieces.flatten.length⟩ := by
  simp only [scan, stop.scan_eq d.grammar_valid, scanFrom, Nat.zero_add]

theorem scan_of_inside (stop : Stop d.grammar text before (part :: others) pieces left)
    (more : left ≠ []) :
    (part.Leads left → d.scan text = ⟨.begun, before.length, pieces.flatten.length⟩) ∧
    (¬ part.Leads left → d.scan text = ⟨.unmatched, before.length, pieces.flatten.length⟩) := by
  have valid : part.Valid := (stop.parts_valid d.grammar_valid).2 part (by simp)
  have stuck := stop.stuck more part rfl
  obtain ⟨c, rest, rfl⟩ := List.exists_cons_of_ne_nil more
  have scanned := stop.scan_eq d.grammar_valid 0 0 0
  simp only [Nat.zero_add] at scanned
  rw [scan, scanned]
  exact scanFrom_cons valid others stuck _ _ _

theorem scan_cases (d : Definition) (text : Text) :
    (∃ pieces, Stop d.grammar text d.grammar [] pieces [] ∧
      d.scan text = ⟨.complete, d.grammar.length - 1, lastStart 0 0 pieces⟩) ∨
    (∃ pieces left, Stop d.grammar text d.grammar [] pieces left ∧ left ≠ [] ∧
      d.scan text = ⟨.overmatched, d.grammar.length, pieces.flatten.length⟩) ∨
    ∃ before part others pieces left, Stop d.grammar text before (part :: others) pieces left ∧
      (left = [] ∧ d.scan text = ⟨.resolved, before.length, pieces.flatten.length⟩ ∨
        left ≠ [] ∧ part.Leads left ∧
          d.scan text = ⟨.begun, before.length, pieces.flatten.length⟩ ∨
        left ≠ [] ∧ ¬ part.Leads left ∧
          d.scan text = ⟨.unmatched, before.length, pieces.flatten.length⟩) := by
  obtain ⟨before, after, pieces, left, stop⟩ := exists_stop d.grammar_valid text
  by_cases more : left = []
  · subst more
    cases after with
    | nil =>
      obtain rfl : before = d.grammar := by rw [stop.parts_eq, List.append_nil]
      exact .inl ⟨pieces, stop, scan_of_done stop⟩
    | cons part others =>
      exact .inr (.inr ⟨before, part, others, pieces, [], stop, .inl ⟨rfl, scan_of_boundary stop⟩⟩)
  · cases after with
    | nil =>
      obtain rfl : before = d.grammar := by rw [stop.parts_eq, List.append_nil]
      exact .inr (.inl ⟨pieces, left, stop, more, scan_of_overrun stop more⟩)
    | cons part others =>
      obtain ⟨begun, unmatched⟩ := scan_of_inside stop more
      refine .inr (.inr ⟨before, part, others, pieces, left, stop, .inr ?_⟩)
      by_cases leads : part.Leads left
      · exact .inl ⟨more, leads, begun leads⟩
      · exact .inr ⟨more, leads, unmatched leads⟩

end Definition

theorem Viable.exists_whole (valid : ∀ part ∈ parts, part.Valid) (viable : Viable parts text) :
    ∃ all, Fits parts all ∧ text <+: all.flatten := by
  obtain ⟨before, after, pieces, left, stop, fine⟩ := viable
  obtain ⟨-, known⟩ := stop.parts_valid valid
  have behind : ∃ more, Fits after more ∧ left <+: more.flatten := by
    rcases fine with rfl | ⟨part, head, value, allowed, begins⟩
    · obtain ⟨more, fits⟩ := exists_fits known
      exact ⟨more, fits, List.nil_prefix⟩
    · cases after with
      | nil => cases head
      | cons first others =>
        cases head
        obtain ⟨more, fits⟩ := exists_fits (List.forall_mem_cons.mp known).2
        exact ⟨value :: more, .cons allowed fits, begins.trans (List.prefix_append _ _)⟩
  obtain ⟨more, fits, begins⟩ := behind
  refine ⟨pieces ++ more, ?_, ?_⟩
  · rw [stop.parts_eq]
    exact List.rel_append stop.reads.fits fits
  · rw [stop.text_eq, List.flatten_append]
    exact (List.prefix_append_right_inj _).mpr begins

theorem viable_nil (parts : List Part) : Viable parts [] :=
  ⟨[], parts, [], [], ⟨rfl, .done [], fun impossible => False.elim (impossible rfl)⟩, .inl rfl⟩

theorem viable_of_leads {part : Part} (leads : part.Leads text)
    (stuck : ∀ value, part.Allows value → ¬ value <+: text) : Viable (part :: parts) text := by
  refine ⟨[], part :: parts, [], text, ⟨rfl, .done text, ?_⟩, .inr ⟨part, rfl, leads⟩⟩
  intro _ p member
  cases member
  exact stuck

theorem isLost_iff_not_viable (valid : ∀ part ∈ parts, part.Valid) (number position last : Nat) :
    (scanFrom number position last parts text).state.IsLost ↔ ¬ Viable parts text := by
  constructor
  · rintro lost ⟨before, after, pieces, left, stop, fine⟩
    exact (stop.isLost_iff valid number position last).mp lost fine
  · intro unfit
    obtain ⟨before, after, pieces, left, stop⟩ := exists_stop valid text
    apply (stop.isLost_iff valid number position last).mpr
    intro fine
    exact unfit ⟨before, after, pieces, left, stop, fine⟩

theorem viable_append_iff (valid : ∀ part ∈ before ++ after, part.Valid)
    (reads : Reads before text pieces left) :
    Viable (before ++ after) text ↔ Viable after left := by
  obtain ⟨front, back⟩ := List.forall_mem_append.mp valid
  apply not_iff_not.mp
  rw [← isLost_iff_not_viable valid 0 0 0, scanFrom_append front reads,
    isLost_iff_not_viable back]

end SearchBar
