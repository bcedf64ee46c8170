import SearchBar.Text.Blank

namespace SearchBar.Text

def IsWord (word : Text) : Prop :=
  word ≠ [] ∧ ∀ c ∈ word, isBlank c = false

instance : DecidablePred IsWord :=
  fun word => @instDecidableAnd _ _ inferInstance (List.decidableBAll _ word)

variable {word : Text} {pieces : List Text}

theorem closeWord_append (word : Text) (others more : List Text) :
    closeWord word (others ++ more) = closeWord word others ++ more := by
  unfold closeWord
  split <;> rfl

theorem splitWord_append_blank {c : Char} (blank : isBlank c = true) (front back : Text) :
    splitWord (front ++ c :: back) =
      ((splitWord front).1, (splitWord front).2 ++ words back) := by
  induction front with
  | nil => simp [splitWord, words, blank]
  | cons d front ih =>
    rw [List.cons_append, splitWord, ih, splitWord]
    cases isBlank d <;> simp [closeWord_append]

theorem words_append_blank {c : Char} (blank : isBlank c = true) (front back : Text) :
    words (front ++ c :: back) = words front ++ words back := by
  rw [words, splitWord_append_blank blank]
  exact closeWord_append _ _ _

theorem splitWord_of_unbroken (unbroken : ∀ c ∈ word, isBlank c = false) :
    splitWord word = (word, []) := by
  induction word with
  | nil => rfl
  | cons c rest ih =>
    obtain ⟨first, others⟩ := List.forall_mem_cons.mp unbroken
    simp [splitWord, ih others, first]

theorem words_of_isWord (whole : IsWord word) : words word = [word] := by
  simp [words, splitWord_of_unbroken whole.2, closeWord, whole.1]

theorem isWord_of_mem_closeWord {others : List Text} (unbroken : ∀ c ∈ word, isBlank c = false)
    (whole : ∀ other ∈ others, IsWord other) : ∀ other ∈ closeWord word others, IsWord other := by
  unfold closeWord
  split
  · exact whole
  · rename_i present
    exact List.forall_mem_cons.mpr ⟨⟨by simpa using present, unbroken⟩, whole⟩

theorem splitWord_isWord (text : Text) :
    (∀ c ∈ (splitWord text).1, isBlank c = false) ∧
      ∀ word ∈ (splitWord text).2, IsWord word := by
  induction text with
  | nil => simp [splitWord]
  | cons c rest ih =>
    rw [splitWord]
    cases blank : isBlank c with
    | true => exact ⟨by simp, isWord_of_mem_closeWord ih.1 ih.2⟩
    | false => exact ⟨List.forall_mem_cons.mpr ⟨blank, ih.1⟩, ih.2⟩

theorem isWord_of_mem_words {text : Text} (member : word ∈ words text) : IsWord word := by
  obtain ⟨unbroken, whole⟩ := splitWord_isWord text
  exact isWord_of_mem_closeWord unbroken whole word member

theorem unwords_cons (word : Text) {others : List Text} (more : others ≠ []) :
    unwords (word :: others) = word ++ ' ' :: unwords others := by
  obtain ⟨next, others, rfl⟩ := List.exists_cons_of_ne_nil more
  simp [unwords, List.intercalate_cons_cons]

theorem words_unwords_concat (whole : ∀ word ∈ pieces, IsWord word) (text : Text) :
    words (unwords (pieces ++ [text])) = pieces ++ words text := by
  induction pieces with
  | nil => simp [unwords]
  | cons word others ih =>
    obtain ⟨first, rest⟩ := List.forall_mem_cons.mp whole
    rw [List.cons_append, unwords_cons word (by simp), words_append_blank (by decide),
      words_of_isWord first, ih rest]
    rfl

/-- Joining words by spaces and cutting again loses nothing. -/
theorem words_unwords (whole : ∀ word ∈ pieces, IsWord word) :
    words (unwords pieces) = pieces := by
  rcases List.eq_nil_or_concat pieces with rfl | ⟨front, last, rfl⟩
  · rfl
  · rw [List.concat_eq_append] at whole ⊢
    obtain ⟨early, late⟩ := List.forall_mem_append.mp whole
    rw [words_unwords_concat early, words_of_isWord (late last (by simp))]

end SearchBar.Text
