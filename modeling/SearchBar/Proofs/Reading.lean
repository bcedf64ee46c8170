import SearchBar.Definition.Basic
import SearchBar.Proofs.Part.Offers
import Mathlib.Data.List.Forall2

/-! Texts as values of several parts, one after the other.
`Fits` says that a text is written in the parts' values; `Reads` follows the parts as they
take their longest values. A text that fits is read differently only where a part can take
more than its piece, and parts that are kept apart never can. -/
namespace SearchBar

/-- One value for each part, in order. -/
def Fits (parts : List Part) (pieces : List Text) : Prop :=
  List.Forall₂ Part.Allows parts pieces

/-- The parts take the pieces, each its longest value, and leave the rest. -/
inductive Reads : List Part → Text → List Text → Text → Prop where
  | done (rest : Text) : Reads [] rest [] rest
  | take {part : Part} {parts : List Part} {text piece rest : Text} {pieces : List Text} :
      part.Longest text piece → Reads parts (text.drop piece.length) pieces rest →
        Reads (part :: parts) text (piece :: pieces) rest

/-- No part allows a longer value than its piece where the piece stands. -/
def Settled : List Part → List Text → Prop
  | part :: parts, piece :: pieces =>
    (∀ value, part.Allows value → value <+: piece ++ pieces.flatten →
      value.length ≤ piece.length) ∧ Settled parts pieces
  | _, _ => True

/-- Where the part could take more than a value, no value of the next part begins with it. -/
def Part.Apart (part next : Part) : Prop :=
  ∀ value more, part.Allows value → part.Allows (value ++ more) → more ≠ [] →
    ∀ other, next.Allows other → other.head? ≠ more.head?

def Definition.Separated (d : Definition) : Prop :=
  d.grammar.IsChain Part.Apart

variable {parts : List Part} {pieces : List Text} {text rest : Text}

theorem Fits.exists_piece (fits : Fits parts pieces) {part : Part} (member : part ∈ parts) :
    ∃ piece ∈ pieces, part.Allows piece := by
  induction fits with
  | nil => cases member
  | @cons first piece _ _ allowed _ ih =>
    rcases List.mem_cons.mp member with rfl | later
    · exact ⟨piece, by simp, allowed⟩
    · obtain ⟨other, among, fit⟩ := ih later
      exact ⟨other, List.mem_cons_of_mem piece among, fit⟩

theorem Part.Longest.append_drop {part : Part} {piece : Text} (longest : part.Longest text piece) :
    piece ++ text.drop piece.length = text := by
  obtain ⟨more, rfl⟩ := longest.begins
  rw [List.drop_left]

namespace Reads

theorem flatten_append (reads : Reads parts text pieces rest) : pieces.flatten ++ rest = text := by
  induction reads with
  | done => rfl
  | take longest _ ih =>
    rw [List.flatten_cons, List.append_assoc, ih]
    exact longest.append_drop

theorem fits (reads : Reads parts text pieces rest) : Fits parts pieces := by
  induction reads with
  | done => exact .nil
  | take longest _ ih => exact .cons longest.allowed ih

theorem settled (reads : Reads parts text pieces []) : Settled parts pieces := by
  generalize empty : ([] : Text) = rest at reads
  induction reads with
  | done => trivial
  | take longest tail ih =>
    subst empty
    refine ⟨?_, ih rfl⟩
    have whole := tail.flatten_append
    rw [List.append_nil] at whole
    rw [whole, longest.append_drop]
    exact longest.greatest

theorem of_append {before after : List Part} {all front : List Text} {middle : Text}
    (reads : Reads (before ++ after) text all rest) (first : Reads before text front middle) :
    ∃ back, all = front ++ back ∧ Reads after middle back rest := by
  induction first generalizing all with
  | done => exact ⟨all, rfl, reads⟩
  | take longest _ ih =>
    cases reads with
    | take other tail =>
      cases other.unique longest
      obtain ⟨back, rfl, second⟩ := ih tail
      exact ⟨back, rfl, second⟩

end Reads

theorem exists_fits (valid : ∀ part ∈ parts, part.Valid) : ∃ pieces, Fits parts pieces := by
  induction parts with
  | nil => exact ⟨[], .nil⟩
  | cons part parts ih =>
    obtain ⟨first, others⟩ := List.forall_mem_cons.mp valid
    obtain ⟨value, allowed, -⟩ := Part.leads_nil first
    obtain ⟨pieces, fits⟩ := ih others
    exact ⟨value :: pieces, .cons allowed fits⟩

theorem reads_of_settled (fits : Fits parts pieces) (settled : Settled parts pieces) :
    Reads parts pieces.flatten pieces [] := by
  induction fits with
  | nil => exact .done []
  | @cons part piece parts pieces allowed _ ih =>
    rw [List.flatten_cons]
    have longest : part.Longest (piece ++ pieces.flatten) piece :=
      ⟨allowed, List.prefix_append _ _, settled.1⟩
    apply Reads.take longest
    rw [List.drop_left]
    exact ih settled.2

theorem split_eq_some_iff (valid : ∀ part ∈ parts, part.Valid) :
    split parts text = some pieces ↔ Reads parts text pieces [] := by
  induction parts generalizing text pieces with
  | nil =>
    cases text with
    | nil =>
      constructor
      · intro h
        cases h
        exact .done []
      · intro h
        cases h
        rfl
    | cons c text => constructor <;> intro h <;> cases h
  | cons part parts ih =>
    obtain ⟨first, others⟩ := List.forall_mem_cons.mp valid
    constructor
    · intro h
      simp only [split] at h
      split at h
      · contradiction
      · rename_i n taken
        obtain ⟨tail, read, rfl⟩ := Option.map_eq_some_iff.mp h
        obtain ⟨piece, longest, rfl⟩ := (Part.consume?_eq_some_iff first).mp taken
        rw [← List.prefix_iff_eq_take.mp longest.begins]
        exact .take longest ((ih others).mp read)
    · intro h
      cases h with
      | @take _ _ _ piece _ tail longest reads =>
        have taken := (Part.consume?_eq_some_iff first).mpr ⟨piece, longest, rfl⟩
        simp only [split, taken, (ih others).mpr reads, Option.map_some]
        rw [← List.prefix_iff_eq_take.mp longest.begins]

theorem Definition.pieces?_eq_some_iff {d : Definition} :
    d.pieces? text = some pieces ↔ Reads d.grammar text pieces [] :=
  split_eq_some_iff d.grammar_valid

theorem Definition.accepts_iff {d : Definition} :
    d.accepts text = true ↔ ∃ pieces, Reads d.grammar text pieces [] := by
  simp only [accepts, Option.isSome_iff_exists, pieces?_eq_some_iff]

/-- A piece that could be longer would have to take the beginning of the next one. -/
theorem settled_of_separated (valid : ∀ part ∈ parts, part.Valid)
    (apart : parts.IsChain Part.Apart) (fits : Fits parts pieces) : Settled parts pieces := by
  induction fits with
  | nil => trivial
  | @cons part piece parts pieces allowed tail ih =>
    obtain ⟨-, others⟩ := List.forall_mem_cons.mp valid
    refine ⟨?_, ih others apart.of_cons⟩
    intro value longer begins
    apply Nat.le_of_not_lt
    intro overrun
    obtain ⟨more, rfl⟩ := List.prefix_of_prefix_length_le (List.prefix_append piece pieces.flatten)
      begins (Nat.le_of_lt overrun)
    have taken : more <+: pieces.flatten := (List.prefix_append_right_inj piece).mp begins
    have nonempty : more ≠ [] := by
      intro empty
      simp [empty] at overrun
    cases tail with
    | nil => exact nonempty (List.prefix_nil.mp taken)
    | @cons next following _ _ nextAllowed _ =>
      have clash := (List.isChain_cons_cons.mp apart).1 piece more allowed longer nonempty
        following nextAllowed
      have present := Part.ne_nil_of_allows (others next (by simp)) nextAllowed
      obtain ⟨c, more, rfl⟩ := List.exists_cons_of_ne_nil nonempty
      obtain ⟨b, following, rfl⟩ := List.exists_cons_of_ne_nil present
      have same : c = b := (List.cons_prefix_cons.mp taken).1
      exact clash (by simp [same])

end SearchBar
