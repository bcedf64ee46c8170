import SearchBar.Proofs.Stability
import SearchBar.Proofs.Words
import SearchBar.Matching

/-! Submitting a text with one word more.
Place by place, the items that are left to choose from differ by one item at most: the new one, or
one that a place would have had without it. If a place without an item takes it, nothing differs
from there on; otherwise one item more is left in the end. -/
namespace SearchBar.Allocation

variable {α β : Type} {suits : α → β → Bool} {place : α} {items more : List β} {p : Nat}

/-- The second list is the first one with one item put in. -/
def Inserted (items more : List β) : Prop :=
  ∃ front item back, items = front ++ back ∧ more = front ++ item :: back

def Serves (final : List (α × Option β)) (p : Nat) : Prop :=
  ∃ item, Holds final p item

@[simp] theorem serves_cons_zero {held : Option β} {final : List (α × Option β)} :
    Serves ((place, held) :: final) 0 ↔ held.isSome = true := by
  simp [Serves, Option.isSome_iff_exists]

@[simp] theorem serves_cons_succ {entry : α × Option β} {final : List (α × Option β)} :
    Serves (entry :: final) (p + 1) ↔ Serves final p := by
  simp [Serves]

theorem Inserted.cons {item : β} (inserted : Inserted items more) :
    Inserted (item :: items) (item :: more) := by
  obtain ⟨front, new, back, rfl, rfl⟩ := inserted
  exact ⟨item :: front, new, back, rfl, rfl⟩

/-- Where one item more is there to choose from, one more is left, unless it is taken where there
was nothing to take. -/
theorem choice_inserted (wanted : β → Bool) (inserted : Inserted items more) :
    (items.find? wanted).isSome = (more.find? wanted).isSome ∧
        Inserted (items.eraseP wanted) (more.eraseP wanted) ∨
      items.find? wanted = none ∧ (more.find? wanted).isSome = true ∧
        items.eraseP wanted = more.eraseP wanted := by
  obtain ⟨front, item, back, rfl, rfl⟩ := inserted
  induction front with
  | nil =>
    cases fits : wanted item with
    | false =>
      refine .inl ⟨?_, [], item, back.eraseP wanted, rfl, ?_⟩
      · simp [fits]
      · simp [fits]
    | true =>
      rcases first_cases wanted back with
        ⟨none, rest, -⟩ | ⟨before, first, behind, rfl, -, -, found, rest⟩
      · refine .inr ⟨none, ?_, ?_⟩
        · simp [fits]
        · simpa [fits] using rest
      · refine .inl ⟨?_, before, first, behind, rest, ?_⟩
        · simp [found, fits]
        · simp [fits]
  | cons other front ih =>
    cases fits : wanted other with
    | true =>
      refine .inl ⟨?_, front, item, back, ?_, ?_⟩ <;> simp [fits]
    | false =>
      rcases ih with ⟨same, inserted⟩ | ⟨none, taken, left⟩
      · exact .inl ⟨by simpa [fits] using same, by simpa [fits] using inserted.cons⟩
      · exact .inr ⟨by simpa [fits] using none, by simpa [fits] using taken,
          by simpa [fits] using left⟩

/-- The items are handed out to the same places and one more is left, or the same are left and one
place more has an item. -/
theorem allocate_inserted (places : List α) (inserted : Inserted items more) :
    (∀ p, Serves (allocate suits places more).1 p ↔ Serves (allocate suits places items).1 p) ∧
        Inserted (allocate suits places items).2 (allocate suits places more).2 ∨
      (∃ q, ¬ Serves (allocate suits places items).1 q ∧
        ∀ p, Serves (allocate suits places more).1 p ↔
          Serves (allocate suits places items).1 p ∨ p = q) ∧
        (allocate suits places more).2 = (allocate suits places items).2 := by
  induction places generalizing items more with
  | nil => exact .inl ⟨fun p => by simp, by simpa using inserted⟩
  | cons place places ih =>
    rw [allocate_cons, allocate_cons]
    rcases choice_inserted (suits place) inserted with ⟨same, rest⟩ | ⟨none, taken, rest⟩
    · rcases ih rest with ⟨served, left⟩ | ⟨⟨q, free, served⟩, left⟩
      · refine .inl ⟨fun p => ?_, left⟩
        cases p with
        | zero => simp [same]
        | succ p => simpa using served p
      · refine .inr ⟨⟨q + 1, by simpa using free, fun p => ?_⟩, left⟩
        cases p with
        | zero => simp [same]
        | succ p => simpa using served p
    · refine .inr ⟨⟨0, by simp [none], fun p => ?_⟩, by rw [rest]⟩
      cases p with
      | zero => simp [taken]
      | succ p => simp [rest]

end SearchBar.Allocation

namespace SearchBar

open Allocation

namespace Assignment

def Serves (a : Assignment) (p : Nat) : Prop :=
  Allocation.Serves a.places p

def ServesOneMore (fewer more : Assignment) : Prop :=
  (∃ q, ¬ fewer.Serves q ∧ ∀ p, more.Serves p ↔ fewer.Serves p ∨ p = q) ∧
    more.leftover = fewer.leftover

def LeavesOneMore (fewer more : Assignment) : Prop :=
  (∀ p, more.Serves p ↔ fewer.Serves p) ∧ Inserted fewer.leftover more.leftover

end Assignment

variable {definitions : List Definition} {early late : List Text} {word : Text}
  {fewer more : Assignment}

theorem assign_inserted (definitions : List Definition) (known : ∀ w ∈ early ++ late, w.IsWord)
    (new : word.IsWord) :
    (assign definitions (Text.unwords (early ++ late))).LeavesOneMore
        (assign definitions (Text.unwords (early ++ word :: late))) ∨
      (assign definitions (Text.unwords (early ++ late))).ServesOneMore
        (assign definitions (Text.unwords (early ++ word :: late))) := by
  have all : ∀ w ∈ early ++ word :: late, w.IsWord := by
    intro w member
    rcases List.mem_cons.mp (List.perm_middle.mem_iff.mp member) with rfl | old
    · exact new
    · exact known w old
  have inserted : Inserted (early ++ late) (early ++ word :: late) :=
    ⟨early, word, late, rfl, rfl⟩
  rw [← Text.words_unwords known, ← Text.words_unwords all] at inserted
  exact allocate_inserted definitions inserted

/-- A word put into a text leaves every definition with a word that had one. Either one
definition more has a word and the same words are left, or the same definitions have a word and
one word more is left, but not both. -/
theorem word_added (known : ∀ w ∈ early ++ late, w.IsWord) (new : word.IsWord)
    (without : assign definitions (Text.unwords (early ++ late)) = fewer)
    (within : assign definitions (Text.unwords (early ++ word :: late)) = more) :
    (∀ p, fewer.Serves p → more.Serves p) ∧
    (fewer.ServesOneMore more ∨ fewer.LeavesOneMore more) ∧
    ¬ (fewer.ServesOneMore more ∧ fewer.LeavesOneMore more) := by
  have either := assign_inserted definitions known new
  rw [without, within] at either
  refine ⟨fun p served => ?_, either.symm, ?_⟩
  · rcases either with ⟨same, -⟩ | ⟨⟨q, -, also⟩, -⟩
    · exact (same p).mpr served
    · exact (also p).mpr (.inl served)
  · rintro ⟨⟨⟨q, free, also⟩, -⟩, same, -⟩
    exact free ((same q).mp ((also q).mpr (.inr rfl)))

def width : Definition where
  tag := 0
  id := "width"
  name := "Width"
  grammar := [.number ['w']]
  description := none
  source := none
  factory := none
  grammar_ne_nil := by decide
  grammar_valid := by decide

def height : Definition :=
  { width with tag := 1, id := "height", name := "Height" }

/-- The new number comes first, and every number behind it moves on, the last one to the draft. -/
theorem seven_added :
    (∀ w ∈ [['x']] ++ [['8'], ['9']], Text.IsWord w) ∧ Text.IsWord ['7'] ∧
    assign [width, height] ['x', ' ', '8', ' ', '9'] =
      ⟨[(width, some ['8']), (height, some ['9'])], [['x']]⟩ ∧
    assign [width, height] ['x', ' ', '7', ' ', '8', ' ', '9'] =
      ⟨[(width, some ['7']), (height, some ['8'])], [['x'], ['9']]⟩ ∧
    (assign [width, height] ['x', ' ', '8', ' ', '9']).LeavesOneMore
      (assign [width, height] ['x', ' ', '7', ' ', '8', ' ', '9']) := by
  have known : ∀ w ∈ [['x']] ++ [['8'], ['9']], Text.IsWord w := by decide
  have new : Text.IsWord ['7'] := by decide
  obtain ⟨-, ⟨-, left⟩ | leaves, -⟩ :=
    @word_added [width, height] [['x']] [['8'], ['9']] ['7'] _ _ known new rfl rfl
  · cases left
  · exact ⟨known, new, rfl, rfl, leaves⟩

end SearchBar
