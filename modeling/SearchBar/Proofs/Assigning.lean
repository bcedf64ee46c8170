import SearchBar.Matching
import SearchBar.Proofs.Stability
import SearchBar.Proofs.Words

namespace SearchBar

open Allocation

variable {definitions : List Definition} {text word : Text}

def wordPlace (definitions : List Definition) (text : Text) : Nat → Option Nat :=
  placeOf Definition.accepts definitions text.words

/-- The definitions that an assignment gives a word, as they are declared, and their words. -/
def servedBy (definitions : List Definition) (words : List Text) (given : Nat → Option Nat) :
    List (Definition × Text) :=
  definitions.zipIdx.filterMap fun (d, p) => (heldBy words given p).map fun word => (d, word)

theorem Assignment.buildAll_eq_mapM (served : List (Definition × Text)) :
    buildAll served = served.mapM fun entry => entry.1.build entry.2 := by
  induction served with
  | nil => rfl
  | cons first served ih =>
    rw [buildAll, List.mapM_cons, ih]

theorem assign_eq (definitions : List Definition) (text : Text) :
    assign definitions text =
      ⟨definitions.zipIdx.map fun (d, p) => (d, heldBy text.words (wordPlace definitions text) p),
        leftBy text.words (wordPlace definitions text)⟩ := by
  simp only [assign, allocate_eq_of_placeOf, wordPlace]

theorem served_eq (definitions : List Definition) (text : Text) :
    (assign definitions text).served =
      servedBy definitions text.words (wordPlace definitions text) := by
  simp only [assign_eq, Assignment.served, servedBy, List.filterMap_map, Function.comp_def]

theorem words_served (definitions : List Definition) (text : Text) :
    (assign definitions text).served.map Prod.snd =
      (allocate Definition.accepts definitions text.words).1.filterMap Prod.snd := by
  simp [assign, Assignment.served, List.map_filterMap, Function.comp_def]

theorem leftover_append_served_perm (definitions : List Definition) (text : Text) :
    ((assign definitions text).leftover ++
      (assign definitions text).served.map Prod.snd).Perm text.words := by
  rw [words_served]
  exact List.perm_append_comm.trans (allocate_perm definitions text.words)

theorem words_unwords_leftover (definitions : List Definition) (text : Text) :
    (Text.unwords (assign definitions text).leftover).words =
      (assign definitions text).leftover := by
  apply Text.words_unwords
  intro word member
  have among := (leftover_append_served_perm definitions text).mem_iff.mp
    (List.mem_append_left _ member)
  exact Text.isWord_of_mem_words among

/-- The words get the only stable assignment. The draft is made of those it leaves and the
filters, as their definitions are declared, of those it gives away: every word is in the draft
or in one filter. -/
theorem words_assigned_stably (definitions : List Definition) (text : Text) :
    (∀ given, Stable Definition.accepts definitions text.words given ↔
      given = wordPlace definitions text) ∧
    assign definitions text =
      ⟨definitions.zipIdx.map fun (d, p) => (d, heldBy text.words (wordPlace definitions text) p),
        leftBy text.words (wordPlace definitions text)⟩ ∧
    matchText definitions text =
      Except.map
        (.draft (Text.unwords (leftBy text.words (wordPlace definitions text))) :: ·)
        ((servedBy definitions text.words (wordPlace definitions text)).mapM
          fun entry => entry.1.build entry.2) ∧
    ((Text.unwords (leftBy text.words (wordPlace definitions text))).words ++
      (servedBy definitions text.words (wordPlace definitions text)).map Prod.snd).Perm
        text.words := by
  have left : (assign definitions text).leftover =
      leftBy text.words (wordPlace definitions text) := by rw [assign_eq]
  refine ⟨fun given => stable_iff, assign_eq definitions text, ?_, ?_⟩
  · rw [matchText, Assignment.filters, Assignment.buildAll_eq_mapM, served_eq, left]
  · rw [← left, ← served_eq, words_unwords_leftover]
    exact leftover_append_served_perm definitions text

end SearchBar
