import SearchBar.Proofs.Scanning

/-! What the state of a scan says about the text.
Scanning stops in front of a part where the text ends, and matching only looks at the end behind
the last one; yet a scan is complete exactly if the definition accepts the text, and resolved
exactly if the first parts alone do. Otherwise the text is too long, or the part that the scan
came to takes nothing, and is begun exactly if what is left is the beginning of a value. -/
namespace SearchBar

inductive Passes : List Part → Text → Text → Prop where
  | done (rest : Text) : Passes [] rest rest
  | take {part : Part} {parts : List Part} {text rest : Text} {n : Nat} :
      part.consume? text = some n → Passes parts (text.drop n) rest →
        Passes (part :: parts) text rest

namespace Definition

/-- The definition that ends behind the first `k` parts. -/
def front (d : Definition) (k : Nat) (positive : 0 < k) : Definition :=
  { d with
    grammar := d.grammar.take k
    grammar_ne_nil := by simp [Nat.ne_of_gt positive, d.grammar_ne_nil]
    grammar_valid := fun part member => d.grammar_valid part (List.mem_of_mem_take member) }

/-- The text is empty, or the parts before number `k` accept it, and there is such a part. -/
def EndsBefore (d : Definition) (k : Nat) (text : Text) : Prop :=
  k < d.grammar.length ∧
    (k = 0 ∧ text = [] ∨ ∃ positive : 0 < k, (d.front k positive).accepts text = true)

/-- The parts before number `k` take the text up to the position, where more of it stands, and
that part takes nothing there. -/
structure FailsAt (d : Definition) (text : Text) (k position : Nat) (part : Part) : Prop where
  within : position < text.length
  there : d.grammar[k]? = some part
  passes : Passes (d.grammar.take k) text (text.drop position)
  fails : part.consume? (text.drop position) = none

end Definition

structure Scan.Tells (s : Scan) (d : Definition) (text : Text) : Prop where
  complete_iff : s.state = .complete ↔ d.accepts text = true
  complete_last : ∀ pieces, d.pieces? text = some pieces →
    s.part = d.grammar.length - 1 ∧ pieces.getLast? = some (text.drop s.position)
  resolved_iff : ∀ k, s.state = .resolved ∧ s.part = k ↔ d.EndsBefore k text
  resolved_position : s.state = .resolved → s.position = text.length
  overmatched_iff : s.state = .overmatched ↔ ∃ rest, Passes d.grammar text rest ∧ rest ≠ []
  stuck_iff : ∀ k position, (s.state = .begun ∨ s.state = .unmatched) ∧ s.part = k ∧
    s.position = position ↔ ∃ part, d.FailsAt text k position part
  begun_iff : ∀ part, d.FailsAt text s.part s.position part →
    (s.state = .begun ↔ ∃ value, part.Allows value ∧ text.drop s.position <+: value ∧
      text.drop s.position ≠ value)

variable {d : Definition} {parts : List Part} {text rest : Text} {pieces : List Text} {k : Nat}

theorem passes_iff (valid : ∀ part ∈ parts, part.Valid) :
    Passes parts text rest ↔ ∃ pieces, Reads parts text pieces rest := by
  constructor
  · intro passes
    induction passes with
    | done => exact ⟨[], .done _⟩
    | take taken _ ih =>
      obtain ⟨first, others⟩ := List.forall_mem_cons.mp valid
      obtain ⟨piece, longest, rfl⟩ := (Part.consume?_eq_some_iff first).mp taken
      obtain ⟨pieces, reads⟩ := ih others
      exact ⟨piece :: pieces, .take longest reads⟩
  · rintro ⟨pieces, reads⟩
    induction reads with
    | done => exact .done _
    | @take _ _ _ piece _ _ longest _ ih =>
      obtain ⟨first, others⟩ := List.forall_mem_cons.mp valid
      exact .take ((Part.consume?_eq_some_iff first).mpr ⟨piece, longest, rfl⟩) (ih others)

theorem getLast?_eq_drop_lastStart (before : Text) (last : Nat) (piece : Text)
    (pieces : List Text) :
    (piece :: pieces).getLast? = some ((before ++ (piece :: pieces).flatten).drop
      (lastStart before.length last (piece :: pieces))) := by
  -- the text before a piece grows with every piece, and starts are counted from there
  induction pieces generalizing before last piece with
  | nil => simp [lastStart]
  | cons next pieces ih =>
    have rest := ih (before ++ piece) before.length next
    rw [List.getLast?_cons_cons, rest]
    simp [lastStart, List.append_assoc]

namespace Definition

theorem endsBefore_iff :
    d.EndsBefore k text ↔
      k < d.grammar.length ∧ ∃ pieces, Reads (d.grammar.take k) text pieces [] := by
  apply and_congr_right
  intro _
  cases k with
  | zero =>
    constructor
    · rintro (⟨-, rfl⟩ | ⟨impossible, -⟩)
      · exact ⟨[], .done []⟩
      · cases impossible
    · rintro ⟨pieces, reads⟩
      cases reads
      exact .inl ⟨rfl, rfl⟩
  | succ k =>
    have accepted : (d.front (k + 1) k.succ_pos).accepts text = true ↔
        ∃ pieces, Reads (d.grammar.take (k + 1)) text pieces [] := accepts_iff
    constructor
    · rintro (⟨impossible, -⟩ | ⟨_, accepts⟩)
      · cases impossible
      · exact accepted.mp accepts
    · intro reads
      exact .inr ⟨k.succ_pos, accepted.mpr reads⟩

theorem stop_of_reads_take (reads : Reads (d.grammar.take k) text pieces rest) {part : Part}
    (there : d.grammar[k]? = some part)
    (stuck : rest ≠ [] → ∀ value, part.Allows value → ¬ value <+: rest) :
    ∃ others, Stop d.grammar text (d.grammar.take k) (part :: others) pieces rest := by
  obtain ⟨bound, rfl⟩ := List.getElem?_eq_some_iff.mp there
  refine ⟨d.grammar.drop (k + 1), ?_, reads, ?_⟩
  · rw [← List.drop_eq_getElem_cons bound, List.take_append_drop]
  · intro more other head
    cases head
    exact stuck more

theorem FailsAt.scan_eq {position : Nat} {part : Part} (failing : d.FailsAt text k position part) :
    (part.Leads (text.drop position) → d.scan text = ⟨.begun, k, position⟩) ∧
    (¬ part.Leads (text.drop position) → d.scan text = ⟨.unmatched, k, position⟩) := by
  have valid : ∀ p ∈ d.grammar.take k, p.Valid :=
    fun p member => d.grammar_valid p (List.mem_of_mem_take member)
  obtain ⟨pieces, reads⟩ := (passes_iff valid).mp failing.passes
  have known := d.grammar_valid part (List.mem_of_getElem? failing.there)
  obtain ⟨others, stop⟩ := stop_of_reads_take reads failing.there
    fun _ => (Part.consume?_eq_none_iff known).mp failing.fails
  have more : text.drop position ≠ [] := by
    rw [Ne, List.drop_eq_nil_iff]
    exact Nat.not_le_of_lt failing.within
  obtain ⟨bound, -⟩ := List.getElem?_eq_some_iff.mp failing.there
  have size : (d.grammar.take k).length = k :=
    List.length_take_of_le (Nat.le_of_lt bound)
  have start : pieces.flatten.length = position := by
    have whole := congrArg List.length reads.flatten_append
    have within := failing.within
    rw [List.length_append, List.length_drop] at whole
    omega
  have ends := scan_of_inside stop more
  rwa [size, start] at ends

theorem failsAt_of_stop {before others : List Part} {part : Part} {left : Text}
    (stop : Stop d.grammar text before (part :: others) pieces left) (more : left ≠ []) :
    d.FailsAt text before.length pieces.flatten.length part := by
  obtain ⟨read, known⟩ := stop.parts_valid d.grammar_valid
  have size := congrArg List.length stop.text_eq
  have rest : text.drop pieces.flatten.length = left := by rw [stop.text_eq, List.drop_left]
  refine ⟨?_, ?_, ?_, ?_⟩
  · have positive := List.length_pos_iff.mpr more
    rw [List.length_append] at size
    omega
  · rw [stop.parts_eq]
    simp
  · rw [rest, stop.parts_eq, List.take_left]
    exact (passes_iff read).mpr ⟨pieces, stop.reads⟩
  · rw [rest]
    exact (Part.consume?_eq_none_iff (known part (by simp))).mpr (stop.stuck more part rfl)

theorem endsBefore_of_stop {before others : List Part} {part : Part}
    (stop : Stop d.grammar text before (part :: others) pieces []) :
    d.EndsBefore before.length text := by
  refine endsBefore_iff.mpr ⟨?_, pieces, ?_⟩
  · rw [stop.parts_eq]
    simp
  · rw [stop.parts_eq, List.take_left]
    exact stop.reads

theorem EndsBefore.scan_eq (ends : d.EndsBefore k text) :
    d.scan text = ⟨.resolved, k, text.length⟩ := by
  obtain ⟨bound, pieces, reads⟩ := endsBefore_iff.mp ends
  obtain ⟨others, stop⟩ := stop_of_reads_take reads (List.getElem?_eq_getElem bound)
    fun impossible => False.elim (impossible rfl)
  have size : (d.grammar.take k).length = k :=
    List.length_take_of_le (Nat.le_of_lt bound)
  have whole := reads.flatten_append
  rw [List.append_nil] at whole
  rw [scan_of_boundary stop, size, whole]

theorem scan_complete_iff : (d.scan text).state = .complete ↔ d.accepts text = true := by
  constructor
  · intro complete
    rcases d.scan_cases text with ⟨pieces, stop, -⟩ | ⟨pieces, left, -, -, scanned⟩ |
      ⟨before, part, others, pieces, left, -, ⟨-, scanned⟩ | ⟨-, -, scanned⟩ | ⟨-, -, scanned⟩⟩
    · exact accepts_iff.mpr ⟨pieces, stop.reads⟩
    all_goals
      rw [scanned] at complete
      cases complete
  · intro accepted
    obtain ⟨pieces, split⟩ := Option.isSome_iff_exists.mp accepted
    rw [scan_of_pieces? split]

theorem last_of_pieces? (split : d.pieces? text = some pieces) :
    (d.scan text).part = d.grammar.length - 1 ∧
      pieces.getLast? = some (text.drop (d.scan text).position) := by
  have reads := pieces?_eq_some_iff.mp split
  rw [scan_of_pieces? split]
  refine ⟨rfl, ?_⟩
  cases pieces with
  | nil => exact False.elim (d.grammar_ne_nil (List.forall₂_nil_right_iff.mp reads.fits))
  | cons piece pieces =>
    have whole := reads.flatten_append
    rw [List.append_nil] at whole
    rw [← whole]
    exact getLast?_eq_drop_lastStart [] 0 piece pieces

theorem endsBefore_of_scan_resolved (resolved : (d.scan text).state = .resolved) :
    d.EndsBefore (d.scan text).part text := by
  rcases d.scan_cases text with ⟨pieces, -, scanned⟩ | ⟨pieces, left, -, -, scanned⟩ |
    ⟨before, part, others, pieces, left, stop, ⟨rfl, scanned⟩ | ⟨-, -, scanned⟩ | ⟨-, -, scanned⟩⟩
  case inr.inr.inl =>
    rw [scanned]
    exact endsBefore_of_stop stop
  all_goals
    rw [scanned] at resolved
    cases resolved

theorem scan_overmatched_iff : (d.scan text).state = .overmatched ↔
    ∃ rest, Passes d.grammar text rest ∧ rest ≠ [] := by
  constructor
  · intro overmatched
    rcases d.scan_cases text with ⟨pieces, -, scanned⟩ | ⟨pieces, left, stop, more, -⟩ |
      ⟨before, part, others, pieces, left, -, ⟨-, scanned⟩ | ⟨-, -, scanned⟩ | ⟨-, -, scanned⟩⟩
    case inr.inl => exact ⟨left, (passes_iff d.grammar_valid).mpr ⟨pieces, stop.reads⟩, more⟩
    all_goals
      rw [scanned] at overmatched
      cases overmatched
  · rintro ⟨rest, passes, more⟩
    obtain ⟨pieces, reads⟩ := (passes_iff d.grammar_valid).mp passes
    have stop : Stop d.grammar text d.grammar [] pieces rest :=
      ⟨(List.append_nil _).symm, reads, fun _ part none => by cases none⟩
    rw [scan_of_overrun stop more]

/-- What is left of the text at a part that takes nothing leads to none of its values but longer
ones. -/
theorem FailsAt.leads_iff {position : Nat} {part : Part}
    (failing : d.FailsAt text k position part) : part.Leads (text.drop position) ↔
      ∃ value, part.Allows value ∧ text.drop position <+: value ∧ text.drop position ≠ value := by
  have known := d.grammar_valid part (List.mem_of_getElem? failing.there)
  have nowhere := (Part.consume?_eq_none_iff known).mp failing.fails
  constructor
  · rintro ⟨value, allowed, begins⟩
    refine ⟨value, allowed, begins, fun same => ?_⟩
    exact nowhere value allowed (same ▸ List.prefix_refl value)
  · rintro ⟨value, allowed, begins, -⟩
    exact ⟨value, allowed, begins⟩

theorem failsAt_of_scan (stuck : (d.scan text).state = .begun ∨ (d.scan text).state = .unmatched) :
    ∃ part, d.FailsAt text (d.scan text).part (d.scan text).position part := by
  rcases d.scan_cases text with ⟨pieces, -, scanned⟩ | ⟨pieces, left, -, -, scanned⟩ |
    ⟨before, part, others, pieces, left, stop,
      ⟨-, scanned⟩ | ⟨more, -, scanned⟩ | ⟨more, -, scanned⟩⟩
  case inr.inr.inr.inl | inr.inr.inr.inr =>
    rw [scanned]
    exact ⟨part, failsAt_of_stop stop more⟩
  all_goals
    rw [scanned] at stuck
    rcases stuck with impossible | impossible <;> cases impossible

theorem scan_stuck_iff {position : Nat} :
    ((d.scan text).state = .begun ∨ (d.scan text).state = .unmatched) ∧
        (d.scan text).part = k ∧ (d.scan text).position = position ↔
      ∃ part, d.FailsAt text k position part := by
  constructor
  · rintro ⟨stuck, rfl, rfl⟩
    exact failsAt_of_scan stuck
  · rintro ⟨part, failing⟩
    by_cases leads : part.Leads (text.drop position)
    · rw [failing.scan_eq.1 leads]
      exact ⟨.inl rfl, rfl, rfl⟩
    · rw [failing.scan_eq.2 leads]
      exact ⟨.inr rfl, rfl, rfl⟩

theorem FailsAt.begun_iff {position : Nat} {part : Part}
    (failing : d.FailsAt text k position part) :
    (d.scan text).state = .begun ↔ part.Leads (text.drop position) := by
  by_cases leads : part.Leads (text.drop position)
  · rw [failing.scan_eq.1 leads]
    exact iff_of_true rfl leads
  · rw [failing.scan_eq.2 leads]
    exact iff_of_false nofun leads

theorem scan_resolved_iff :
    (d.scan text).state = .resolved ∧ (d.scan text).part = k ↔ d.EndsBefore k text := by
  constructor
  · rintro ⟨resolved, rfl⟩
    exact endsBefore_of_scan_resolved resolved
  · intro ends
    rw [ends.scan_eq]
    exact ⟨rfl, rfl⟩

theorem tells_scan (d : Definition) (text : Text) : (d.scan text).Tells d text where
  complete_iff := scan_complete_iff
  complete_last _ := last_of_pieces?
  resolved_iff _ := scan_resolved_iff
  resolved_position resolved := by rw [(endsBefore_of_scan_resolved resolved).scan_eq]
  overmatched_iff := scan_overmatched_iff
  stuck_iff _ _ := scan_stuck_iff
  begun_iff part failing := failing.begun_iff.trans failing.leads_iff

end Definition

/-- Scanning agrees with matching, and tells how far the text gets where it does not match. -/
theorem scan_tells (d : Definition) (text : Text) :
    (d.scan text).Tells d text ∧
    (∀ j k, d.EndsBefore j text → d.EndsBefore k text → j = k) ∧
    (d.accepts text = true → ∀ k, ¬ d.EndsBefore k text) := by
  refine ⟨d.tells_scan text, ?_, ?_⟩
  · intro j k first second
    exact congrArg Scan.part (first.scan_eq.symm.trans second.scan_eq)
  · intro accepted k ends
    have complete := Definition.scan_complete_iff.mpr accepted
    rw [ends.scan_eq] at complete
    cases complete

def clock : Definition where
  tag := 0
  id := "clock"
  name := "Clock"
  grammar := [.digits 2 ['h'], .literal [':'], .digits 2 ['m']]
  description := none
  source := none
  factory := none
  grammar_ne_nil := by decide
  grammar_valid := by decide

theorem clock_typed :
    clock.EndsBefore 2 ['1', '2', ':'] ∧
    (∃ part, clock.FailsAt ['1', '2', ':', '3'] 2 3 part ∧
      ∃ value, part.Allows value ∧ ['3'] <+: value ∧ ['3'] ≠ value) ∧
    clock.accepts ['1', '2', ':', '3', '4'] = true ∧
    ∃ rest, Passes clock.grammar ['1', '2', ':', '3', '4', '5'] rest ∧ rest ≠ [] := by
  refine ⟨?_, ?_, ?_, ?_⟩
  · exact ((scan_tells clock _).1.resolved_iff 2).mp ⟨rfl, rfl⟩
  · have tells := (scan_tells clock ['1', '2', ':', '3']).1
    obtain ⟨part, failing⟩ := (tells.stuck_iff 2 3).mp ⟨.inl rfl, rfl, rfl⟩
    exact ⟨part, failing, (tells.begun_iff part failing).mp rfl⟩
  · exact (scan_tells clock _).1.complete_iff.mp rfl
  · exact (scan_tells clock _).1.overmatched_iff.mp rfl

end SearchBar
