import SearchBar.Proofs.Parsing
import SearchBar.Proofs.States

namespace SearchBar

namespace Part

/-- The part of a piece that its value tells. -/
def kept : Part → Text → Text
  | number _, piece => Text.significant piece
  | literal _, piece | options _, piece | digits _ _, piece => piece

/-- A value as a text, filled up with zeros where the part has a fixed count of digits. -/
def written : Part → Capture → Text
  | _, .text value => value
  | digits count _, .number n => (Nat.toDigits 10 n.toNat).leftpad count '0'
  | _, .number n => Nat.toDigits 10 n.toNat

variable {part : Part} {piece other : Text}

theorem captured_eq_iff (allowed : part.Allows piece) (otherAllowed : part.Allows other) :
    part.captured piece = part.captured other ↔ part.kept piece = part.kept other := by
  cases part with
  | literal word => simp [captured, kept]
  | options choices => simp [captured, kept]
  | number name =>
    have digits := List.all_eq_true.mp (Bool.and_eq_true_iff.mp allowed).2
    have otherDigits := List.all_eq_true.mp (Bool.and_eq_true_iff.mp otherAllowed).2
    simp only [captured, kept, Capture.number.injEq, Int.natCast_inj]
    exact Text.decimalNumber_eq_iff digits otherDigits
  | digits count name =>
    have digits := List.all_eq_true.mp allowed.2
    have otherDigits := List.all_eq_true.mp otherAllowed.2
    simp only [captured, kept, Capture.number.injEq, Int.natCast_inj]
    rw [Text.decimalNumber_eq_iff digits otherDigits]
    constructor
    · intro same
      rw [← Text.append_significant piece, ← Text.append_significant other, same, allowed.1,
        otherAllowed.1]
    · exact congrArg Text.significant

theorem written_captured (valid : part.Valid) (allowed : part.Allows piece)
    (fixed : ∀ name, part ≠ .number name) : part.written (part.captured piece) = piece := by
  cases part with
  | literal word => rfl
  | options choices => rfl
  | number name => exact False.elim (fixed name rfl)
  | digits count name =>
    have filled := Text.leftpad_toDigits (ne_nil_of_allows valid allowed)
      (List.all_eq_true.mp allowed.2)
    rw [allowed.1] at filled
    exact filled

end Part

variable {parts : List Part} {pieces others : List Text} {text other : Text} {d : Definition}

theorem zipWith_captured_eq_iff (fits : Fits parts pieces) (otherFits : Fits parts others) :
    List.zipWith Part.captured parts pieces = List.zipWith Part.captured parts others ↔
      List.zipWith Part.kept parts pieces = List.zipWith Part.kept parts others := by
  induction fits generalizing others with
  | nil => simp
  | cons allowed _ ih =>
    cases otherFits with
    | cons otherAllowed tail =>
      simp only [List.zipWith_cons_cons, List.cons.injEq]
      exact and_congr (Part.captured_eq_iff allowed otherAllowed) (ih tail)

theorem zipWith_kept (fits : Fits parts pieces) (fixed : ∀ name, .number name ∉ parts) :
    List.zipWith Part.kept parts pieces = pieces := by
  induction fits with
  | nil => rfl
  | @cons part piece parts pieces _ _ ih =>
    have own : part.kept piece = piece := by
      cases part with
      | number name => exact False.elim (fixed name List.mem_cons_self)
      | _ => rfl
    rw [List.zipWith_cons_cons, own, ih fun name later => fixed name (List.mem_cons_of_mem _ later)]

theorem zipWith_written (valid : ∀ part ∈ parts, part.Valid) (fits : Fits parts pieces)
    (fixed : ∀ name, .number name ∉ parts) :
    List.zipWith Part.written parts (List.zipWith Part.captured parts pieces) = pieces := by
  induction fits with
  | nil => rfl
  | @cons part piece parts pieces allowed _ ih =>
    obtain ⟨first, behind⟩ := List.forall_mem_cons.mp valid
    have own : part.written (part.captured piece) = piece := by
      refine Part.written_captured first allowed fun name same => ?_
      exact fixed name (same ▸ List.mem_cons_self)
    simp only [List.zipWith_cons_cons, own,
      ih behind fun name later => fixed name (List.mem_cons_of_mem _ later)]

theorem Definition.pieces_of_legible (accepted : d.accepts text = true) (legible : d.Legible text) :
    ∃ pieces, d.pieces? text = some pieces ∧ Fits d.grammar pieces ∧ pieces.flatten = text ∧
      d.parse text = .ok (List.zipWith Part.captured d.grammar pieces) := by
  obtain ⟨values, parsed⟩ := (d.exists_parse_iff text).mpr ⟨accepted, legible⟩
  have reading := d.parse_exact text
  rw [parsed] at reading
  obtain ⟨-, pieces, split, rfl⟩ := reading
  have reads := pieces?_eq_some_iff.mp split
  have whole := reads.flatten_append
  rw [List.append_nil] at whole
  exact ⟨pieces, split, reads.fits, whole, parsed⟩

/-- Two texts that can be read have the same values exactly if their pieces agree, but for zeros in
front of numbers. Without numbers the values tell the text, and it can be written back from them. -/
theorem parse_keeps (accepted : d.accepts text = true) (legible : d.Legible text)
    (otherAccepted : d.accepts other = true) (otherLegible : d.Legible other) :
    ∃ pieces others values otherValues,
      d.pieces? text = some pieces ∧ d.pieces? other = some others ∧
      d.parse text = .ok values ∧ d.parse other = .ok otherValues ∧
      (values = otherValues ↔
        List.zipWith Part.kept d.grammar pieces = List.zipWith Part.kept d.grammar others) ∧
      ((∀ name, .number name ∉ d.grammar) →
        (values = otherValues → text = other) ∧
          (List.zipWith Part.written d.grammar values).flatten = text) := by
  obtain ⟨pieces, split, fits, whole, parsed⟩ := Definition.pieces_of_legible accepted legible
  obtain ⟨others, otherSplit, otherFits, otherWhole, otherParsed⟩ :=
    Definition.pieces_of_legible otherAccepted otherLegible
  have told := zipWith_captured_eq_iff fits otherFits
  refine ⟨pieces, others, _, _, split, otherSplit, parsed, otherParsed, told, fun fixed => ⟨?_, ?_⟩⟩
  · intro same
    have equal := told.mp same
    rw [zipWith_kept fits fixed, zipWith_kept otherFits fixed] at equal
    rw [← whole, ← otherWhole, equal]
  · rw [zipWith_written d.grammar_valid fits fixed, whole]

theorem clock_written_back :
    (tally.accepts ['0', '7'] = true ∧ tally.accepts ['7'] = true ∧
      tally.Legible ['0', '7'] ∧ tally.Legible ['7'] ∧
      tally.parse ['0', '7'] = tally.parse ['7']) ∧
    (clock.accepts ['0', '7', ':', '0', '0'] = true ∧ clock.Legible ['0', '7', ':', '0', '0'] ∧
      ∃ values, clock.parse ['0', '7', ':', '0', '0'] = .ok values ∧
        values = [.number 7, .text [':'], .number 0] ∧
        (List.zipWith Part.written clock.grammar values).flatten = ['0', '7', ':', '0', '0']) := by
  have legible : ∀ (d : Definition) (text : Text), text.length ≤ 5 → d.Legible text :=
    fun d text short => d.legible_of_short (Nat.le_trans short (by decide))
  constructor
  · have first := legible tally ['0', '7'] (by decide)
    have second := legible tally ['7'] (by decide)
    obtain ⟨pieces, others, values, otherValues, split, otherSplit, parsed, otherParsed, told, -⟩ :=
      parse_keeps (d := tally) rfl first rfl second
    refine ⟨rfl, rfl, first, second, ?_⟩
    cases split
    cases otherSplit
    rw [parsed, otherParsed, told.mpr rfl]
  · have read := legible clock ['0', '7', ':', '0', '0'] (by decide)
    obtain ⟨_, _, values, _, _, _, parsed, _, _, back⟩ :=
      parse_keeps (d := clock) rfl read rfl read
    have fixed : ∀ name, .number name ∉ clock.grammar := by simp [clock]
    refine ⟨rfl, read, values, parsed, ?_, (back fixed).2⟩
    cases parsed
    rfl

end SearchBar
