import SearchBar.Proofs.Numerals
import SearchBar.Proofs.Reading

namespace SearchBar

def decimals : List Char :=
  ['0', '1', '2', '3', '4', '5', '6', '7', '8', '9']

theorem mem_decimals_iff {c : Char} : c ∈ decimals ↔ c.isDigit = true := by
  constructor
  · exact List.all_eq_true.mp (show decimals.all Char.isDigit = true from rfl) c
  · intro digit
    have bounds := Text.isDigit_iff.mp digit
    have listed : ∀ n < 58, 48 ≤ n → Char.ofNat n ∈ decimals := by decide
    rw [← Char.ofNat_toNat c]
    exact listed c.toNat (Nat.lt_succ_of_le bounds.2) bounds.1

namespace Part

def firstChars : Part → List Char
  | literal text => text.head?.toList
  | options choices => choices.filterMap List.head?
  | number _ => decimals
  | digits count _ => if count = 0 then [] else decimals

/-- The characters with which a value goes on to a longer value of the part. -/
def furtherChars : Part → List Char
  | literal _ | digits _ _ => []
  | options choices => choices.flatMap fun shorter => choices.filterMap fun longer =>
    if shorter.isPrefixOf longer then (longer.drop shorter.length).head? else none
  | number _ => decimals

variable {part next : Part} {c : Char}

theorem mem_firstChars_iff :
    c ∈ part.firstChars ↔ ∃ value, part.Allows value ∧ value.head? = some c := by
  cases part with
  | literal text => simp [firstChars, Allows]
  | options choices => simp [firstChars, Allows]
  | number name =>
    rw [firstChars, mem_decimals_iff]
    constructor
    · intro digit
      exact ⟨[c], by simpa [Allows, isNumeral] using digit, rfl⟩
    · rintro ⟨value, allowed, head⟩
      exact List.all_eq_true.mp (Bool.and_eq_true_iff.mp allowed).2 c (List.mem_of_head? head)
  | digits count name =>
    by_cases zero : count = 0
    · rw [firstChars, if_pos zero]
      refine iff_of_false List.not_mem_nil ?_
      rintro ⟨value, ⟨length, -⟩, head⟩
      rw [List.length_eq_zero_iff.mp (length.trans zero)] at head
      cases head
    · rw [firstChars, if_neg zero, mem_decimals_iff]
      constructor
      · intro digit
        refine ⟨List.replicate count c, ⟨List.length_replicate, ?_⟩, ?_⟩
        · simp [digit]
        · simp [List.head?_replicate, zero]
      · rintro ⟨value, ⟨-, inside⟩, head⟩
        exact List.all_eq_true.mp inside c (List.mem_of_head? head)

theorem mem_furtherChars_iff : c ∈ part.furtherChars ↔
    ∃ value more, part.Allows value ∧ part.Allows (value ++ more) ∧ more.head? = some c := by
  -- values of one length cannot go on to one another
  have stop : ∀ {value more : Text}, (value ++ more).length = value.length →
      more.head? ≠ some c := by
    intro value more same
    rw [List.length_append, Nat.add_eq_left, List.length_eq_zero_iff] at same
    simp [same]
  cases part with
  | literal text =>
    refine iff_of_false List.not_mem_nil ?_
    rintro ⟨value, more, own, longer, head⟩
    exact stop (congrArg List.length (longer.trans own.symm)) head
  | options choices =>
    simp only [furtherChars, List.mem_flatMap, List.mem_filterMap, List.isPrefixOf_iff_prefix,
      Option.ite_none_right_eq_some]
    constructor
    · rintro ⟨shorter, own, _, longer, ⟨more, rfl⟩, head⟩
      rw [List.drop_left] at head
      exact ⟨shorter, more, own, longer, head⟩
    · rintro ⟨value, more, own, longer, head⟩
      exact ⟨value, own, value ++ more, longer, List.prefix_append _ _, by rwa [List.drop_left]⟩
  | number name =>
    rw [furtherChars, mem_decimals_iff]
    constructor
    · intro digit
      exact ⟨['0'], [c], rfl, by simpa [Allows, isNumeral] using digit, rfl⟩
    · rintro ⟨value, more, -, longer, head⟩
      exact List.all_eq_true.mp (Bool.and_eq_true_iff.mp longer).2 c
        (List.mem_append_right value (List.mem_of_head? head))
  | digits count name =>
    refine iff_of_false List.not_mem_nil ?_
    rintro ⟨value, more, own, longer, head⟩
    exact stop (longer.1.trans own.1.symm) head

theorem apart_iff : part.Apart next ↔ ∀ c ∈ part.furtherChars, c ∉ next.firstChars := by
  constructor
  · intro apart c further first
    obtain ⟨value, more, own, longer, begins⟩ := mem_furtherChars_iff.mp further
    obtain ⟨other, foreign, head⟩ := mem_firstChars_iff.mp first
    have nonempty : more ≠ [] := by
      rintro rfl
      cases begins
    exact apart value more own longer nonempty other foreign (head.trans begins.symm)
  · intro disjoint value more own longer nonempty other foreign same
    obtain ⟨c, rest, rfl⟩ := List.exists_cons_of_ne_nil nonempty
    exact disjoint c (mem_furtherChars_iff.mpr ⟨value, c :: rest, own, longer, rfl⟩)
      (mem_firstChars_iff.mpr ⟨other, foreign, same⟩)

instance : DecidableRel Apart :=
  fun _ _ => @decidable_of_iff _ _ apart_iff.symm (List.decidableBAll _ _)

end Part

instance : DecidablePred Definition.Separated :=
  fun d => inferInstanceAs (Decidable (d.grammar.IsChain Part.Apart))

theorem Definition.pieces?_of_separated {d : Definition} {pieces : List Text}
    (separated : d.Separated) (fits : Fits d.grammar pieces) :
    d.pieces? pieces.flatten = some pieces :=
  pieces?_eq_some_iff.mpr
    (reads_of_settled fits (settled_of_separated d.grammar_valid separated fits))

/-- The pieces of a match are one value for each part, and together the text. Where the parts are
kept apart every text in such values matches, and its pieces are the only such values. -/
theorem separated_match_exact (d : Definition) (text : Text) :
    (d.accepts text = true → ∃ pieces, Fits d.grammar pieces ∧ pieces.flatten = text) ∧
    (∀ pieces, d.pieces? text = some pieces →
      Fits d.grammar pieces ∧ pieces.flatten = text) ∧
    (d.Separated →
      (d.accepts text = true ↔ ∃ pieces, Fits d.grammar pieces ∧ pieces.flatten = text) ∧
      (∀ pieces, Fits d.grammar pieces → pieces.flatten = text →
        d.pieces? text = some pieces ∧
          ∀ others, Fits d.grammar others → others.flatten = text → others = pieces)) := by
  have sound : ∀ pieces, d.pieces? text = some pieces →
      Fits d.grammar pieces ∧ pieces.flatten = text := by
    intro pieces split
    have reads := Definition.pieces?_eq_some_iff.mp split
    exact ⟨reads.fits, by simpa using reads.flatten_append⟩
  have written : d.accepts text = true →
      ∃ pieces, Fits d.grammar pieces ∧ pieces.flatten = text := by
    intro accepted
    obtain ⟨pieces, split⟩ := Option.isSome_iff_exists.mp accepted
    exact ⟨pieces, sound pieces split⟩
  refine ⟨written, sound, fun separated => ⟨⟨written, ?_⟩, ?_⟩⟩
  · rintro ⟨pieces, fits, rfl⟩
    exact Option.isSome_iff_exists.mpr ⟨pieces, Definition.pieces?_of_separated separated fits⟩
  · rintro pieces fits rfl
    have split := Definition.pieces?_of_separated separated fits
    refine ⟨split, fun others also same => ?_⟩
    have again := Definition.pieces?_of_separated separated also
    rw [same, split] at again
    exact (Option.some.inj again).symm

def limit : Definition where
  tag := 0
  id := "limit"
  name := "Limit"
  grammar := [.literal ['n'], .options [['<'], ['<', '=']], .number ['n']]
  description := none
  source := none
  factory := none
  grammar_ne_nil := by decide
  grammar_valid := by decide

theorem limit_split : limit.Separated ∧
    limit.pieces? ['n', '<', '=', '4', '2'] = some [['n'], ['<', '='], ['4', '2']] := by
  have separated : limit.Separated := by decide
  have fits : Fits limit.grammar [['n'], ['<', '='], ['4', '2']] :=
    .cons rfl (.cons (by decide) (.cons rfl .nil))
  obtain ⟨-, -, alone⟩ := separated_match_exact limit ['n', '<', '=', '4', '2']
  exact ⟨separated, ((alone separated).2 _ fits rfl).1⟩

end SearchBar
