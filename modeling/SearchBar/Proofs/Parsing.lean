import SearchBar.Proofs.Agreement
import SearchBar.Proofs.Finishing
import SearchBar.Proofs.Layering
import SearchBar.Proofs.Matching
import SearchBar.Proofs.Numerals

namespace SearchBar

variable {parts : List Part} {pieces : List Text} {text rest : Text} {d : Definition}
  {definitions : List Definition} {filters : List Filter}

/-- The value of a piece that suits the part, whatever its length. -/
def Part.captured : Part → Text → Capture
  | literal _, piece | options _, piece => .text piece
  | number _, piece | digits _ _, piece => .number (Text.decimalNumber piece)

def Part.Readable : Part → Text → Prop
  | literal _, _ | options _, _ => True
  | number _, piece | digits _ _, piece => piece.length ≤ Text.longestInteger

instance : (part : Part) → (piece : Text) → Decidable (part.Readable piece)
  | .literal _, _ | .options _, _ => inferInstanceAs (Decidable True)
  | .number _, piece | .digits _ _, piece =>
    inferInstanceAs (Decidable (piece.length ≤ Text.longestInteger))

def Definition.Legible (d : Definition) (text : Text) : Prop :=
  ∀ pieces, d.pieces? text = some pieces → List.Forall₂ Part.Readable d.grammar pieces

/-- The values are those of the pieces. A text that is not accepted and a numeral that is too long
are different failures. -/
def Definition.ExactReading (d : Definition) (text : Text) :
    Except ParseFault (List Capture) → Prop
  | .ok values => d.Legible text ∧ ∃ pieces, d.pieces? text = some pieces ∧
      values = List.zipWith Part.captured d.grammar pieces
  | .error (.mismatch shown id) => d.accepts text = false ∧ shown = text ∧ id = d.id
  | .error (.integer cause) => d.accepts text = true ∧ ¬ d.Legible text ∧ cause = .tooLong

theorem Part.readInteger_of_allows {part : Part} {piece : Text} (valid : part.Valid)
    (allowed : part.Allows piece) (digits : piece.all Char.isDigit = true) :
    Text.readInteger piece =
      if piece.length ≤ Text.longestInteger then .ok (Text.decimalNumber piece : Int)
      else .error .tooLong :=
  Text.readInteger_of_digits (ne_nil_of_allows valid allowed) (List.all_eq_true.mp digits)

theorem Part.capture_eq {part : Part} {piece : Text} (valid : part.Valid)
    (allowed : part.Allows piece) :
    part.capture piece =
      if part.Readable piece then .ok (part.captured piece) else .error .tooLong := by
  cases part with
  | literal word => rfl
  | options choices => rfl
  | number name =>
    have digits : piece.all Char.isDigit = true := (Bool.and_eq_true_iff.mp allowed).2
    have read := readInteger_of_allows valid allowed digits
    by_cases short : piece.length ≤ Text.longestInteger <;>
      simp [capture, captured, Readable, read, short, Except.map]
  | digits count name =>
    have read := readInteger_of_allows valid allowed allowed.2
    by_cases short : piece.length ≤ Text.longestInteger <;>
      simp [capture, captured, Readable, read, short, Except.map]

theorem captures_cases (valid : ∀ part ∈ parts, part.Valid) (fits : Fits parts pieces) :
    List.Forall₂ Part.Readable parts pieces ∧
        captures parts pieces = .ok (List.zipWith Part.captured parts pieces) ∨
      ¬ List.Forall₂ Part.Readable parts pieces ∧
        captures parts pieces = .error (.integer .tooLong) := by
  induction fits with
  | nil => exact .inl ⟨.nil, rfl⟩
  | @cons part piece parts pieces allowed _ ih =>
    obtain ⟨first, others⟩ := List.forall_mem_cons.mp valid
    have own := Part.capture_eq first allowed
    by_cases readable : part.Readable piece
    · rw [if_pos readable] at own
      rcases ih others with ⟨all, values⟩ | ⟨long, failed⟩
      · refine .inl ⟨.cons readable all, ?_⟩
        simp [captures, own, values, Except.map]
      · refine .inr ⟨fun all => long (List.forall₂_cons.mp all).2, ?_⟩
        simp [captures, own, failed, Except.map]
    · -- the first piece that is too long decides, whatever stands behind it
      rw [if_neg readable] at own
      refine .inr ⟨fun all => readable (List.forall₂_cons.mp all).1, ?_⟩
      simp [captures, own]

theorem Definition.legible_iff (split : d.pieces? text = some pieces) :
    d.Legible text ↔ List.Forall₂ Part.Readable d.grammar pieces := by
  constructor
  · intro legible
    exact legible pieces split
  · intro readable others same
    rw [split] at same
    cases same
    exact readable

theorem Definition.parse_exact (d : Definition) (text : Text) :
    d.ExactReading text (d.parse text) := by
  unfold parse
  cases split : d.pieces? text with
  | none => exact ⟨by simp [accepts, split], rfl, rfl⟩
  | some pieces =>
    have fits : Fits d.grammar pieces := (pieces?_eq_some_iff.mp split).fits
    rcases captures_cases d.grammar_valid fits with ⟨readable, values⟩ | ⟨long, failed⟩
    · simp only [values]
      exact ⟨(legible_iff split).mpr readable, pieces, split, rfl⟩
    · simp only [failed]
      refine ⟨by simp [accepts, split], ?_, rfl⟩
      rwa [legible_iff split]

theorem Reads.readable (reads : Reads parts text pieces rest)
    (short : text.length ≤ Text.longestInteger) : List.Forall₂ Part.Readable parts pieces := by
  induction reads with
  | done => exact .nil
  | @take part _ text piece _ _ longest _ ih =>
    have within : piece.length ≤ text.length := longest.begins.length_le
    have own : part.Readable piece := by
      cases part with
      | literal word => trivial
      | options choices => trivial
      | number name => exact Nat.le_trans within short
      | digits count name => exact Nat.le_trans within short
    refine .cons own (ih ?_)
    rw [List.length_drop]
    exact Nat.le_trans (Nat.sub_le _ _) short

theorem Definition.legible_of_short (d : Definition) (short : text.length ≤ Text.longestInteger) :
    d.Legible text :=
  fun _ split => (pieces?_eq_some_iff.mp split).readable short

theorem Definition.length_of_parse {values : List Capture} (read : d.parse text = .ok values) :
    values.length = d.grammar.length := by
  have reading := d.parse_exact text
  rw [read] at reading
  obtain ⟨-, pieces, split, rfl⟩ := reading
  have paired := (pieces?_eq_some_iff.mp split).fits.length_eq
  rw [List.length_zipWith, ← paired, Nat.min_self]

theorem Definition.exists_parse_iff (d : Definition) (text : Text) :
    (∃ values, d.parse text = .ok values) ↔ d.accepts text = true ∧ d.Legible text := by
  have reading := d.parse_exact text
  constructor
  · rintro ⟨values, parsed⟩
    rw [parsed] at reading
    obtain ⟨legible, pieces, split, -⟩ := reading
    exact ⟨by simp [accepts, split], legible⟩
  · rintro ⟨accepted, legible⟩
    cases parsed : d.parse text with
    | ok values => exact ⟨values, rfl⟩
    | error fault =>
      rw [parsed] at reading
      cases fault with
      | mismatch shown id => exact absurd (accepted.symm.trans reading.1) (by decide)
      | integer cause => exact absurd legible reading.2.1

theorem Definition.of_build_finished {e : Definition} {word : Text}
    (made : e.build word = .ok (.finished d text)) : e = d ∧ word = text := by
  unfold build at made
  cases own : e.factory with
  | none =>
    rw [own] at made
    cases made
    exact ⟨rfl, rfl⟩
  | some factory =>
    simp only [own] at made
    cases result : factory word <;> simp [result, Except.map] at made

theorem Assignment.mem_of_finished {served : List (Definition × Text)} {built : List Filter}
    (made : buildAll served = .ok built) (member : .finished d text ∈ built) :
    (d, text) ∈ served := by
  induction served generalizing built with
  | nil =>
    cases made
    cases member
  | cons entry served ih =>
    obtain ⟨e, word⟩ := entry
    obtain ⟨filter, others, own, rest, rfl⟩ := buildAll_cons_eq_ok_iff.mp made
    rcases List.mem_cons.mp member with rfl | later
    · obtain ⟨rfl, rfl⟩ := Definition.of_build_finished own
      exact List.mem_cons_self
    · exact List.mem_cons_of_mem _ (ih rest later)

theorem accepts_of_mem_matchText {submitted : Text}
    (matched : matchText definitions submitted = .ok filters)
    (member : .finished d text ∈ filters) : d.accepts text = true := by
  obtain ⟨built, made, rfl⟩ := matchText_eq_ok_iff.mp matched
  cases member with
  | tail _ later => exact (accepts_of_mem_served (Assignment.mem_of_finished made later)).2

/-- A text has values, one for each part, exactly if it is accepted and none of its numerals is too
long; a text that is not accepted is refused as such, with the definition's id. So the filters
that a match finishes have values unless a numeral in them is too long. -/
theorem values_of_accepted (d : Definition) (text : Text) :
    d.ExactReading text (d.parse text) ∧
    ((∃ values, d.parse text = .ok values ∧ values.length = d.grammar.length) ↔
      d.accepts text = true ∧ d.Legible text) ∧
    (d.parse text = .error (.mismatch text d.id) ↔ d.accepts text = false) ∧
    (text.length ≤ Text.longestInteger → d.Legible text) ∧
    ∀ definitions submitted filters, matchText definitions submitted = .ok filters →
      .finished d text ∈ filters →
        d.accepts text = true ∧ ((∃ values, d.parse text = .ok values) ↔ d.Legible text) := by
  have parsed := d.exists_parse_iff text
  refine ⟨d.parse_exact text, ?_, d.parse_eq_mismatch_iff text, d.legible_of_short, ?_⟩
  · rw [← parsed]
    constructor
    · rintro ⟨values, read, -⟩
      exact ⟨values, read⟩
    · rintro ⟨values, read⟩
      exact ⟨values, read, Definition.length_of_parse read⟩
  · intro definitions submitted filters matched member
    have accepted := accepts_of_mem_matchText matched member
    exact ⟨accepted, parsed.trans (and_iff_right accepted)⟩

def tally : Definition where
  tag := 0
  id := "tally"
  name := "Tally"
  grammar := [.number ['t']]
  description := none
  source := none
  factory := none
  grammar_ne_nil := by decide
  grammar_valid := by decide

theorem tally_read :
    matchText [tally] ['0', '7'] = .ok [.draft [], .finished tally ['0', '7']] ∧
    ['0', '7'].length ≤ Text.longestInteger ∧
    tally.parse ['0', '7'] = .ok [.number 7] ∧ tally.Legible ['0', '7'] := by
  have matched : matchText [tally] ['0', '7'] =
      .ok [.draft [], .finished tally ['0', '7']] := rfl
  have short : ['0', '7'].length ≤ Text.longestInteger := by decide
  obtain ⟨-, -, -, -, finished⟩ := values_of_accepted tally ['0', '7']
  refine ⟨matched, short, rfl, ?_⟩
  exact (finished [tally] ['0', '7'] _ matched (by simp)).2.mp ⟨_, rfl⟩

theorem tally_pieces? (numeral : Part.isNumeral text = true) :
    tally.pieces? text = some [text] := by
  have longest : (Part.number ['t']).Longest text text :=
    ⟨numeral, List.prefix_refl text, fun _ _ begins => begins.length_le⟩
  refine Definition.pieces?_eq_some_iff.mpr (.take longest ?_)
  rw [List.drop_length]
  exact .done []

/-- A longer numeral is accepted and matched all the same, and then it has no value. -/
theorem tally_unread (numeral : Part.isNumeral text = true)
    (long : Text.longestInteger < text.length) :
    tally.accepts text = true ∧
    matchText [tally] text = .ok [.draft [], .finished tally text] ∧
    tally.parse text = .error (.integer .tooLong) := by
  obtain ⟨some_digit, digits⟩ := Bool.and_eq_true_iff.mp numeral
  have nonempty : text ≠ [] := by simpa using some_digit
  rw [List.all_eq_true] at digits
  have split := tally_pieces? numeral
  have accepted : tally.accepts text = true := by
    rw [Definition.accepts, split]
    rfl
  have whole : text.IsWord := ⟨nonempty, fun c member => Text.isBlank_of_isDigit (digits c member)⟩
  have unread := Text.readInteger_of_digits nonempty digits
  rw [if_neg (Nat.not_le_of_lt long)] at unread
  refine ⟨accepted, ?_, ?_⟩
  · rw [matchText_of_isWord whole, List.find?_singleton, if_pos accepted]
    rfl
  · rw [Definition.parse, split]
    simp only [tally, captures, Part.capture, unread, Except.map]

/-- The number seven, with as many zeros in front as a number that is read has digits at most. -/
def padded : Text :=
  List.replicate Text.longestInteger '0' ++ ['7']

theorem padded_isNumeral : Part.isNumeral padded = true := by
  have zeros : ∀ n, (List.replicate n '0').all Char.isDigit = true := fun n => by
    rw [List.all_replicate]
    cases n <;> rfl
  rw [Part.isNumeral, padded, List.all_append, zeros]
  simp

theorem padded_unread :
    tally.accepts padded = true ∧
    matchText [tally] padded = .ok [.draft [], .finished tally padded] ∧
    tally.parse padded = .error (.integer .tooLong) := by
  refine tally_unread padded_isNumeral ?_
  rw [padded, List.length_append, List.length_replicate]
  exact Nat.lt_succ_self _

end SearchBar
