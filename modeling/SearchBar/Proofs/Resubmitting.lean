import SearchBar.Proofs.Assigning
import SearchBar.Proofs.Matching

namespace SearchBar

/-- The text of filters as they are shown, with the draft behind the others. -/
def writtenBack : List Filter → Text
  | [] => []
  | draft :: finished =>
    Text.unwords ((finished ++ [draft]).map fun filter => filter.shown.toList)

def Assignment.text (a : Assignment) : Text :=
  Text.unwords (a.served.map Prod.snd ++ [Text.unwords a.leftover])

theorem words_text_assign (definitions : List Definition) (text : Text) :
    (assign definitions text).text.words =
      (assign definitions text).served.map Prod.snd ++ (assign definitions text).leftover := by
  have whole : ∀ word ∈ (assign definitions text).served.map Prod.snd, word.IsWord := by
    intro word member
    have among := (leftover_append_served_perm definitions text).mem_iff.mp
      (List.mem_append_right _ member)
    exact Text.isWord_of_mem_words among
  rw [Assignment.text, Text.words_unwords_concat whole, words_unwords_leftover]

theorem assign_again (definitions : List Definition) (text : Text) :
    assign definitions (assign definitions text).text = assign definitions text := by
  have again : Allocation.allocate Definition.accepts definitions
      (assign definitions text).text.words =
        Allocation.allocate Definition.accepts definitions text.words := by
    rw [words_text_assign, words_served]
    exact Allocation.allocate_again definitions text.words
  rw [assign, again]
  rfl

theorem writtenBack_eq (a : Assignment) :
    writtenBack (.draft (Text.unwords a.leftover) ::
      a.served.map fun (d, word) => .finished d word) = a.text := by
  simp [writtenBack, Assignment.text, Filter.shown, Function.comp_def]

/-- Without factories, the filters of a match are made again by a match of the text that they are
written back to. -/
theorem match_written_back {definitions : List Definition}
    (plain : ∀ d ∈ definitions, d.factory = none) (text : Text) :
    ∃ filters, matchText definitions text = .ok filters ∧
      matchText definitions (writtenBack filters) = .ok filters := by
  have matched := matchText_of_plain plain text
  refine ⟨_, matched, ?_⟩
  rw [writtenBack_eq, matchText_of_plain plain, assign_again]

def hour : Definition where
  tag := 0
  id := "hour"
  name := "Hour"
  grammar := [.digits 2 ['h']]
  description := none
  source := none
  factory := none
  grammar_ne_nil := by decide
  grammar_valid := by decide

def amount : Definition :=
  { hour with
    tag := 1, id := "amount", name := "Amount", grammar := [.number ['a']],
    grammar_ne_nil := by decide, grammar_valid := by decide }

/-- The hour is written in front of the amount, which could have it now. -/
theorem hour_written_back :
    (∀ d ∈ [hour, amount], d.factory = none) ∧
    matchText [hour, amount] ['7', ' ', 'x', ' ', '1', '2'] =
      .ok [.draft ['x'], .finished hour ['1', '2'], .finished amount ['7']] ∧
    matchText [hour, amount] ['1', '2', ' ', '7', ' ', 'x'] =
      .ok [.draft ['x'], .finished hour ['1', '2'], .finished amount ['7']] := by
  have plain : ∀ d ∈ [hour, amount], d.factory = none := by
    simp [hour, amount]
  have submitted : matchText [hour, amount] ['7', ' ', 'x', ' ', '1', '2'] =
      .ok [.draft ['x'], .finished hour ['1', '2'], .finished amount ['7']] := rfl
  obtain ⟨filters, matched, again⟩ :=
    match_written_back plain ['7', ' ', 'x', ' ', '1', '2']
  obtain rfl := Except.ok.inj (matched.symm.trans submitted)
  refine ⟨plain, submitted, ?_⟩
  simpa [writtenBack, Filter.shown, Text.unwords] using again

end SearchBar
