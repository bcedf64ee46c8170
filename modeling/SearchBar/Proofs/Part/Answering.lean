import SearchBar.Part.Position
import SearchBar.Proofs.Suggesting

namespace SearchBar

theorem Sequence.between_natCast {α : Type} (xs : List α) (start stop : Nat) :
    Sequence.between xs (start : Int) (stop : Int) = (xs.drop start).take (stop - start) := by
  rw [between, before_natCast, bound_natCast, ← List.drop_take]
  rcases Nat.le_total start xs.length with within | past
  · rw [Nat.min_eq_left within]
  · have behind : (xs.take stop).length ≤ xs.length := List.length_take_le' stop xs
    rw [Nat.min_eq_right past, List.drop_of_length_le behind,
      List.drop_of_length_le (Nat.le_trans behind past)]

namespace Part

variable {part : Part} {rest label value : Text} {texts : List Text}

theorem offer_of_values (offered : part.completions rest = .values texts) :
    part.offer rest = .ok (.values texts) := by
  rw [offer, offered]

theorem offer_of_placeholder (offered : part.completions rest = .placeholder label) :
    part.offer rest =
      if part.isLabelWritable then .ok (.placeholder label) else .error .longCount := by
  simp only [offer, offered, Part.label, placeholder?_of_completions offered]
  split <;> rfl

theorem completions_of_labelled (labelled : part.placeholder? = some label) (rest : Text) :
    part.completions rest = .placeholder label ∨ part.completions rest = .values [rest] ∨
      part.completions rest = .values [] := by
  cases part with
  | literal word => cases labelled
  | options choices => cases labelled
  | number name =>
    cases labelled
    by_cases empty : rest = []
    · exact .inl (by simp [completions, placeholder?, empty])
    · by_cases numeral : isNumeral rest = true <;> simp [completions, empty, numeral]
  | digits count name =>
    cases labelled
    by_cases full : rest.length = count ∧ isNumeral rest = true
    · exact .inr (.inl (by simp [completions, full.1, full.2]))
    · by_cases short : rest.length < count ∧ (rest = [] ∨ isNumeral rest = true) <;>
        simp [completions, placeholder?, full, short]

theorem mem_goingOn_iff (valid : part.Valid) (listed : part.placeholder? = none) :
    value ∈ part.goingOn rest ↔ part.Allows value ∧ rest <+: value := by
  have exact := completions_exact valid rest
  rw [completions_of_listed listed] at exact
  exact ⟨exact.1 value, fun ⟨allowed, begins⟩ => mem_goingOn listed allowed begins⟩

theorem goingOn_eq_nil_iff (valid : part.Valid) (listed : part.placeholder? = none) :
    part.goingOn rest = [] ↔ ¬ part.Leads rest := by
  rw [List.eq_nil_iff_forall_not_mem, Leads, not_exists]
  exact forall_congr' fun value => not_congr (mem_goingOn_iff valid listed)

/-- Which of its three answers a part with a label gives is told by the values that it allows. -/
theorem labelled_cases (valid : part.Valid) (labelled : part.placeholder? = some label)
    (rest : Text) :
    part.completions rest = .placeholder label ∧ ¬ part.Allows rest ∧ part.Leads rest ∨
      part.completions rest = .values [rest] ∧ part.Allows rest ∧ part.Leads rest ∨
      part.completions rest = .values [] ∧ ¬ part.Allows rest ∧ ¬ part.Leads rest := by
  have exact := completions_exact valid rest
  have leads (allowed : part.Allows rest) : part.Leads rest :=
    ⟨rest, allowed, List.prefix_refl rest⟩
  rcases completions_of_labelled labelled rest with offered | offered | offered
  · rw [offered] at exact
    exact .inl ⟨offered, exact⟩
  · rw [offered] at exact
    have allowed := (exact.1 rest (List.mem_singleton_self rest)).1
    exact .inr (.inl ⟨offered, allowed, leads allowed⟩)
  · rw [offered] at exact
    have lost := exact.2 rfl
    exact .inr (.inr ⟨offered, mt leads lost, lost⟩)

structure Offering (part : Part) (rest : Text) (offered : Except LabelFault Offer) : Prop where
  nothing : offered = .ok (.values []) ↔ ¬ part.Leads rest
  listed : part.placeholder? = none →
    offered = .ok (.values (part.goingOn rest)) ∧
      ∀ value, value ∈ part.goingOn rest ↔ part.Allows value ∧ rest <+: value
  labelled : ∀ label, part.placeholder? = some label →
    (offered = .ok (.values [rest]) ↔ part.Allows rest) ∧
    (part.isLabelWritable = true → ∀ shown, offered = .ok (.placeholder shown) ↔
      shown = label ∧ ¬ part.Allows rest ∧ part.Leads rest)
  failing : ∀ fault, offered = .error fault ↔
    fault = .longCount ∧ part.isLabelWritable = false ∧ ¬ part.Allows rest ∧ part.Leads rest

theorem offering_rest (valid : part.Valid) (rest : Text) :
    part.Offering rest (part.offer rest) := by
  cases named : part.placeholder? with
  | none =>
    rw [offer_of_values (completions_of_listed named rest)]
    constructor
    case nothing =>
      simpa using goingOn_eq_nil_iff valid named
    case listed =>
      exact fun _ => ⟨rfl, fun value => mem_goingOn_iff valid named⟩
    case labelled =>
      intro label labelled
      cases named.symm.trans labelled
    case failing =>
      simp [isLabelWritable_of_listed named]
  | some label =>
    rcases labelled_cases valid named rest with
      ⟨made, free, leads⟩ | ⟨made, allowed, leads⟩ | ⟨made, free, lost⟩
    · rw [offer_of_placeholder made]
      cases writable : part.isLabelWritable <;>
        constructor <;> simp [named, writable, free, leads, eq_comm]
    · rw [offer_of_values made]
      constructor <;> simp [named, allowed, leads]
    · rw [offer_of_values made]
      constructor <;> simp [named, free, lost]

structure Consumes (part : Part) (rest : Text) (taken : Option Nat) (begun : Bool) : Prop where
  longest : part.ExactTaking rest taken
  within : ∀ n, taken = some n → 1 ≤ n ∧ n ≤ rest.length
  broken : taken = none →
    (begun = true ↔ rest ≠ [] ∧ ∃ value, part.Allows value ∧ rest <+: value ∧ rest ≠ value)

theorem consumes_rest (valid : part.Valid) (rest : Text) :
    part.Consumes rest (part.consume? rest) (part.isBegun rest) := by
  have exact := consume?_taking valid rest
  constructor
  case longest => exact exact
  case within =>
    intro n taken
    rw [taken] at exact
    refine ⟨Nat.pos_of_ne_zero ?_, exact.1⟩
    rintro rfl
    exact ne_nil_of_allows valid exact.2.allowed (List.take_zero)
  case broken =>
    intro untaken
    rw [isBegun_iff valid untaken]
    have nowhere := (consume?_eq_none_iff valid).mp untaken
    refine and_congr_right fun _ => exists_congr fun value => and_congr_right fun allowed => ?_
    refine (and_iff_left_of_imp fun _ => ?_).symm
    rintro rfl
    exact nowhere rest allowed (List.prefix_refl rest)

theorem startsAt_natCast (text word : Text) (position : Nat) :
    startsAt text word (position : Int) = word.isPrefixOf (text.drop position) := by
  have same : ∀ i, text[Sequence.bound text.length position + i]? = (text.drop position)[i]? := by
    intro i
    rw [Sequence.bound_natCast, List.getElem?_drop]
    rcases Nat.le_total position text.length with within | past
    · rw [Nat.min_eq_left within]
    · rw [Nat.min_eq_right past, List.getElem?_eq_none (by omega), List.getElem?_eq_none (by omega)]
  rw [Bool.eq_iff_iff, List.isPrefixOf_iff_prefix, List.prefix_iff_getElem?]
  simp only [startsAt, List.all_eq_true, List.mem_range, beq_iff_eq, same]
  refine forall₂_congr fun i within => ?_
  rw [List.getElem?_eq_getElem within]

theorem digitRunEnd_natCast (text : Text) (position : Nat) :
    digitRunEnd text (position : Int) =
      .ok (position + ((text.drop position).takeWhile Char.isDigit).length : Nat) := by
  induction left : text.length - position generalizing position with
  | zero =>
    have past : text.length ≤ position := by omega
    rw [digitRunEnd, if_neg (by omega), List.drop_of_length_le past]
    rfl
  | succ left ih =>
    have within : position < text.length := by omega
    have here : Sequence.item? text position = some text[position] := by
      have forward : ¬ (position : Int) < 0 := by omega
      simp [Sequence.item?, forward]
    rw [digitRunEnd, if_pos (by omega), here, List.drop_eq_getElem_cons within]
    cases digit : text[position].isDigit with
    | true =>
      have further := ih (position + 1) (by omega)
      rw [List.takeWhile_cons_of_pos digit, List.length_cons, Nat.add_comm _ 1, ← Nat.add_assoc]
      simp only [digit, if_true]
      exact further
    | false =>
      rw [List.takeWhile_cons_of_neg (by simp [digit])]
      simp [digit]

theorem foldl_longest (fits : Text → Bool) (choices : List Text) :
    choices.foldl (fun best choice =>
      if fits choice && best.all (· < choice.length) then some choice.length else best) none =
        ((choices.filter fits).map List.length).max? := by
  have onward : ∀ (choices : List Text) (best : Nat), choices.foldl (fun best choice =>
      if fits choice && best.all (· < choice.length) then some choice.length else best)
        (some best) = some (((choices.filter fits).map List.length).foldl max best) := by
    intro choices
    induction choices with
    | nil => exact fun best => rfl
    | cons choice choices ih =>
      intro best
      rw [List.foldl_cons]
      cases fit : fits choice with
      | false => simp only [Bool.false_and, Bool.false_eq_true, if_false, ih, List.filter_cons, fit]
      | true =>
        rw [List.filter_cons_of_pos fit, List.map_cons, List.foldl_cons, ← ih]
        by_cases longer : best < choice.length
        · simp [longer, Nat.max_eq_right (Nat.le_of_lt longer)]
        · simp [longer, Nat.max_eq_left (Nat.le_of_not_lt longer)]
  induction choices with
  | nil => rfl
  | cons choice choices ih =>
    rw [List.foldl_cons]
    cases fit : fits choice with
    | false =>
      simp only [Bool.false_and, Bool.false_eq_true, if_false, List.filter_cons, fit]
      exact ih
    | true =>
      rw [List.filter_cons_of_pos fit, List.map_cons, List.max?_cons']
      exact onward choices choice.length

@[simp] theorem consumeAt?_natCast (part : Part) (text : Text) (position : Nat) :
    part.consumeAt? text position = .ok (part.consume? (text.drop position)) := by
  cases part with
  | literal word => rw [consumeAt?, startsAt_natCast, consume?]
  | options choices =>
    simp only [consumeAt?, startsAt_natCast, consume?]
    rw [foldl_longest fun choice => choice.isPrefixOf (text.drop position)]
  | number name =>
    have run := List.prefix_iff_eq_take.mp
      (List.takeWhile_prefix (l := text.drop position) Char.isDigit)
    simp only [consumeAt?, digitRunEnd_natCast]
    show Except.ok _ = _
    rw [Sequence.between_natCast, Nat.add_sub_cancel_left, ← run, consume?]
    cases (text.drop position).takeWhile Char.isDigit <;> rfl
  | digits count name =>
    simp only [consumeAt?, consume?]
    rw [← Int.natCast_add, Sequence.between_natCast, Nat.add_sub_cancel_left]

@[simp] theorem isBegunAt_natCast (part : Part) (text : Text) (position : Nat) :
    part.isBegunAt text position = part.isBegun (text.drop position) := by
  rw [isBegunAt, Sequence.onward_natCast]

@[simp] theorem offerAt_natCast (part : Part) (text : Text) (position : Nat) :
    part.offerAt text position = part.offer (text.drop position) := by
  rw [offerAt, Sequence.onward_natCast]

/-- At a position from the first character on, a part answers for the rest of the text alone: it
takes its longest value, is begun by what breaks off inside one, and offers what goes on. -/
theorem answers_at_position (valid : part.Valid) (text : Text) (position : Nat) :
    ∃ taken, part.consumeAt? text position = .ok taken ∧
      part.Consumes (text.drop position) taken (part.isBegunAt text position) ∧
      part.Offering (text.drop position) (part.offerAt text position) ∧
      ∀ (other : Text) (more : Nat), other.drop more = text.drop position →
        part.consumeAt? other more = .ok taken ∧
        part.isBegunAt other more = part.isBegunAt text position ∧
        part.offerAt other more = part.offerAt text position := by
  refine ⟨part.consume? (text.drop position), consumeAt?_natCast part text position, ?_, ?_, ?_⟩
  · rw [isBegunAt_natCast]
    exact consumes_rest valid _
  · rw [offerAt_natCast]
    exact offering_rest valid _
  · intro other more same
    simp [same]

/-- Two digits of a number of three, behind the first letter of a text. -/
theorem code_awaited : (digits 3 ['n']).Valid ∧
    (digits 3 ['n']).consumeAt? ['=', '4', '0'] 1 = .ok none ∧
    (digits 3 ['n']).isBegunAt ['=', '4', '0'] 1 = true ∧
    (digits 3 ['n']).offerAt ['=', '4', '0'] 1 =
      .ok (.placeholder ['\x7b', '3', '-', 'd', 'i', 'g', 'i', 't', ' ', 'n', '\x7d']) := by
  have valid : (digits 3 ['n']).Valid := by decide
  have leads : (digits 3 ['n']).Leads ['4', '0'] :=
    ⟨['4', '0', '4'], by decide, by decide⟩
  obtain ⟨taken, made, consumes, offering, -⟩ := answers_at_position valid ['=', '4', '0'] 1
  obtain rfl : none = taken := Except.ok.inj made
  refine ⟨valid, made, ?_, ?_⟩
  · exact (consumes.broken rfl).mpr ⟨by decide, ['4', '0', '4'], by decide, by decide, by decide⟩
  · exact ((offering.labelled _ rfl).2 (by decide +kernel) _).mpr ⟨rfl, by decide, leads⟩

theorem offerAt_of_long_count {count : Nat} {name : Text} (valid : (digits count name).Valid)
    (long : Text.isWritable count = false) (text : Text) :
    (digits count name).offerAt text text.length = .error .longCount := by
  rw [offerAt_natCast, List.drop_length, (offering_rest valid []).failing]
  exact ⟨rfl, long, fun allowed => ne_nil_of_allows valid allowed rfl, leads_nil valid⟩

/-- Where a text ends, every run of so many digits can follow, but the label that stands for them
cannot be written. -/
theorem long_count_untold : ∃ count, (digits count ['n']).Valid ∧
    ¬ (digits count ['n']).Allows [] ∧ (digits count ['n']).Leads [] ∧
    (digits count ['n']).offerAt [] (0 : Nat) = .error .longCount := by
  have valid : (digits (Nat.pow 10 Text.longestInteger) ['n']).Valid :=
    ⟨unwritable_pos, List.cons_ne_nil _ _⟩
  exact ⟨_, valid, fun allowed => ne_nil_of_allows valid allowed rfl, leads_nil valid,
    offerAt_of_long_count valid Text.isWritable_unwritable []⟩

end Part
end SearchBar
