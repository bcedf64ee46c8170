import SearchBar.Part.Basic

namespace SearchBar.Part

structure Longest (part : Part) (text value : Text) : Prop where
  allowed : part.Allows value
  begins : value <+: text
  greatest : ∀ other, part.Allows other → other <+: text → other.length ≤ value.length

def ExactTaking (part : Part) (text : Text) : Option Nat → Prop
  | none => ∀ value, part.Allows value → ¬ value <+: text
  | some n => n ≤ text.length ∧ part.Longest text (text.take n)

theorem ne_nil_of_allows {part : Part} (valid : part.Valid) {value : Text}
    (allowed : part.Allows value) : value ≠ [] := by
  intro empty
  subst empty
  cases part with
  | literal text => exact valid allowed.symm
  | options choices => exact valid.2.1 [] allowed rfl
  | number name => cases allowed
  | digits count name =>
    have zero : 0 = count := allowed.1
    have positive := valid.1
    omega

namespace Longest

variable {part : Part} {text more value other : Text}

theorem unique (first : part.Longest text value) (second : part.Longest text other) :
    value = other := by
  have same : value.length = other.length := Nat.le_antisymm
    (second.greatest value first.allowed first.begins)
    (first.greatest other second.allowed second.begins)
  have within : value <+: other :=
    List.prefix_of_prefix_length_le first.begins second.begins (Nat.le_of_eq same)
  exact within.eq_of_length same

theorem of_append (longest : part.Longest (text ++ more) value) (within : value <+: text) :
    part.Longest text value :=
  ⟨longest.allowed, within,
    fun other allowed begins =>
      longest.greatest other allowed (begins.trans (List.prefix_append text more))⟩

end Longest

/-- A numeral that a text begins with lies within the text's first run of digits. -/
theorem length_le_takeWhile {p : Char → Bool} {value text : Text} (inside : value.all p = true)
    (begins : value <+: text) : value.length ≤ (text.takeWhile p).length := by
  obtain ⟨rest, rfl⟩ := begins
  rw [List.takeWhile_append_of_pos (List.all_eq_true.mp inside), List.length_append]
  exact Nat.le_add_right _ _

theorem literal_taking (text rest : Text) :
    (literal text).ExactTaking rest ((literal text).consume? rest) := by
  by_cases begins : text <+: rest
  · have taken : (literal text).consume? rest = some text.length := by
      simp [consume?, begins]
    have piece : rest.take text.length = text := (List.prefix_iff_eq_take.mp begins).symm
    rw [taken]
    refine ⟨begins.length_le, ?_⟩
    rw [piece]
    exact ⟨rfl, begins, fun other allowed _ => Nat.le_of_eq (congrArg List.length allowed)⟩
  · have taken : (literal text).consume? rest = none := by
      simp [consume?, begins]
    rw [taken]
    intro value allowed prefixed
    exact begins (allowed ▸ prefixed)

theorem options_taking (choices : List Text) (rest : Text) :
    (options choices).ExactTaking rest ((options choices).consume? rest) := by
  cases taken : (options choices).consume? rest with
  | none =>
    have unfit : choices.filter (·.isPrefixOf rest) = [] := by
      simpa [consume?] using taken
    intro value allowed begins
    have fit : value ∈ choices.filter (·.isPrefixOf rest) :=
      List.mem_filter.mpr ⟨allowed, by simpa using begins⟩
    simp [unfit] at fit
  | some n =>
    obtain ⟨member, greatest⟩ := List.max?_eq_some_iff.mp taken
    obtain ⟨choice, fit, rfl⟩ := List.mem_map.mp member
    have begins : choice <+: rest := by simpa using (List.mem_filter.mp fit).2
    have piece : rest.take choice.length = choice := (List.prefix_iff_eq_take.mp begins).symm
    refine ⟨begins.length_le, ?_⟩
    rw [piece]
    refine ⟨(List.mem_filter.mp fit).1, begins, ?_⟩
    intro other allowed prefixed
    apply greatest
    exact List.mem_map.mpr
      ⟨other, List.mem_filter.mpr ⟨allowed, by simpa using prefixed⟩, rfl⟩

theorem number_taking (name rest : Text) :
    (number name).ExactTaking rest ((number name).consume? rest) := by
  have prefixed : rest.takeWhile Char.isDigit <+: rest := List.takeWhile_prefix _
  cases run : (rest.takeWhile Char.isDigit).length with
  | zero =>
    have taken : (number name).consume? rest = none := by simp [consume?, run]
    rw [taken]
    intro value allowed begins
    have digits : value.all Char.isDigit = true := (Bool.and_eq_true_iff.mp allowed).2
    have nonempty : value ≠ [] := by
      intro empty
      subst empty
      cases allowed
    have positive : 0 < value.length := List.length_pos_iff.mpr nonempty
    have bound := length_le_takeWhile digits begins
    omega
  | succ n =>
    have taken : (number name).consume? rest = some (n + 1) := by simp [consume?, run]
    have piece : rest.take (n + 1) = rest.takeWhile Char.isDigit := by
      rw [← run]
      exact (List.prefix_iff_eq_take.mp prefixed).symm
    rw [taken]
    refine ⟨run ▸ prefixed.length_le, ?_⟩
    rw [piece]
    have nonempty : rest.takeWhile Char.isDigit ≠ [] := by
      intro empty
      simp [empty] at run
    refine ⟨?_, prefixed, ?_⟩
    · show isNumeral (rest.takeWhile Char.isDigit) = true
      simp [isNumeral, nonempty]
    · intro other allowed begins
      exact length_le_takeWhile (Bool.and_eq_true_iff.mp allowed).2 begins

theorem digits_taking {count : Nat} (positive : 0 < count) (name rest : Text) :
    (digits count name).ExactTaking rest ((digits count name).consume? rest) := by
  by_cases fit : (rest.take count).length = count ∧ isNumeral (rest.take count) = true
  · have taken : (digits count name).consume? rest = some count := by
      simp [consume?, fit.1, fit.2]
    have long : count ≤ rest.length := by
      have length := fit.1
      rw [List.length_take] at length
      omega
    rw [taken]
    refine ⟨long, ⟨fit.1, (Bool.and_eq_true_iff.mp fit.2).2⟩, List.take_prefix _ _, ?_⟩
    intro other allowed _
    exact Nat.le_of_eq (allowed.1.trans fit.1.symm)
  · have taken : (digits count name).consume? rest = none := by
      simp only [consume?, Bool.and_eq_true, beq_iff_eq, if_neg fit]
    rw [taken]
    intro value allowed begins
    have piece : rest.take count = value := by
      rw [← allowed.1]
      exact (List.prefix_iff_eq_take.mp begins).symm
    have nonempty : value ≠ [] := by
      intro empty
      have zero := allowed.1
      simp only [empty, List.length_nil] at zero
      omega
    apply fit
    rw [piece]
    exact ⟨allowed.1, by simp [isNumeral, nonempty, allowed.2]⟩

theorem consume?_taking {part : Part} (valid : part.Valid) (text : Text) :
    part.ExactTaking text (part.consume? text) := by
  cases part with
  | literal word => exact literal_taking word text
  | options choices => exact options_taking choices text
  | number name => exact number_taking name text
  | digits count name => exact digits_taking valid.1 name text

theorem consume?_eq_none_iff {part : Part} (valid : part.Valid) {text : Text} :
    part.consume? text = none ↔ ∀ value, part.Allows value → ¬ value <+: text := by
  have exact := consume?_taking valid text
  cases taken : part.consume? text with
  | none =>
    rw [taken] at exact
    exact ⟨fun _ => exact, fun _ => rfl⟩
  | some n =>
    rw [taken] at exact
    constructor
    · intro impossible; cases impossible
    · intro nowhere
      exact False.elim (nowhere _ exact.2.allowed exact.2.begins)

theorem consume?_eq_some_iff {part : Part} (valid : part.Valid) {text : Text} {n : Nat} :
    part.consume? text = some n ↔ ∃ value, part.Longest text value ∧ value.length = n := by
  have exact := consume?_taking valid text
  constructor
  · intro taken
    rw [taken] at exact
    exact ⟨text.take n, exact.2, by rw [List.length_take]; exact Nat.min_eq_left exact.1⟩
  · rintro ⟨value, longest, rfl⟩
    cases taken : part.consume? text with
    | none =>
      rw [taken] at exact
      exact False.elim (exact value longest.allowed longest.begins)
    | some n =>
      rw [taken] at exact
      rw [longest.unique exact.2, List.length_take, Nat.min_eq_left exact.1]

end SearchBar.Part
