import SearchBar.Matching
import SearchBar.Proofs.Allocating

namespace SearchBar

variable {definitions : List Definition} {text : Text}

theorem accepts_of_mem_served {d : Definition} {word : Text}
    (member : (d, word) ∈ (assign definitions text).served) :
    d ∈ definitions ∧ d.accepts word = true := by
  obtain ⟨⟨place, held⟩, among, has⟩ := List.mem_filterMap.mp member
  obtain ⟨item, rfl, same⟩ := Option.map_eq_some_iff.mp has
  cases same
  have declared : d ∈ (assign definitions text).places.map Prod.fst := List.mem_map_of_mem among
  rw [assign, Allocation.allocate_places] at declared
  exact ⟨declared, (Allocation.suits_of_mem_allocate among).2⟩

theorem Assignment.buildAll_cons_eq_ok_iff {d : Definition} {word : Text}
    {served : List (Definition × Text)} {built : List Filter} :
    buildAll ((d, word) :: served) = .ok built ↔ ∃ filter others,
      d.build word = .ok filter ∧ buildAll served = .ok others ∧ built = filter :: others := by
  cases own : d.build word with
  | error fault => simp [buildAll, own, bind, Except.bind]
  | ok filter =>
    cases rest : buildAll served with
    | error fault => simp [buildAll, own, rest, bind, Except.bind]
    | ok others => simp [buildAll, own, rest, bind, Except.bind, pure, Except.pure, eq_comm]

theorem Assignment.buildAll_of_plain {served : List (Definition × Text)}
    (plain : ∀ d word, (d, word) ∈ served → d.factory = none) :
    buildAll served = .ok (served.map fun (d, word) => .finished d word) := by
  induction served with
  | nil => rfl
  | cons first served ih =>
    obtain ⟨d, word⟩ := first
    have own : d.build word = .ok (.finished d word) := by
      rw [Definition.build, plain d word (by simp)]
    have others := ih (fun e w member => plain e w (List.mem_cons_of_mem _ member))
    exact buildAll_cons_eq_ok_iff.mpr ⟨_, _, own, others, rfl⟩

theorem matchText_of_plain (plain : ∀ d ∈ definitions, d.factory = none) (text : Text) :
    matchText definitions text =
      .ok (.draft (Text.unwords (assign definitions text).leftover) ::
        (assign definitions text).served.map fun (d, word) => .finished d word) := by
  have own : ∀ d word, (d, word) ∈ (assign definitions text).served → d.factory = none :=
    fun d _ member => plain d (accepts_of_mem_served member).1
  have built := Assignment.buildAll_of_plain own
  simp [matchText, Assignment.filters, built, Except.map]

end SearchBar
