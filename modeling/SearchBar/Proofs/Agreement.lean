import SearchBar.Proofs.Applying
import SearchBar.Proofs.Assigning
import SearchBar.Proofs.Extending

namespace SearchBar

def Suggestion.closes (draft : Text) (s : Suggestion) : Bool :=
  !s.template && s.complete draft == draft

variable {definitions : List Definition} {d : Definition} {text word : Text}
  {pieces : List Text} {s : Suggestion}

theorem Suggestion.closes_iff :
    s.closes text = true ↔ s.template = false ∧ s.complete text = text := by
  simp [closes]

theorem Suggestion.closes_congr {a b : Suggestion} (alike : a.same b = true) :
    a.closes text = b.closes text := by
  simp only [same, Bool.and_eq_true, beq_iff_eq] at alike
  simp only [closes, complete, alike]

theorem Definition.accepts_eq_isSome (d : Definition) (text : Text) :
    d.accepts text = (d.pieces? text).isSome := rfl

theorem Definition.isResolved_of_accepts (accepted : d.accepts text = true) :
    (d.scan text).isResolved = true := by
  obtain ⟨pieces, split⟩ := Option.isSome_iff_exists.mp accepted
  rw [scan_of_pieces? split]
  rfl

theorem Definition.find?_closes (d : Definition) (text : Text) :
    (d.suggestions text).find? (·.closes text) =
      (d.pieces? text).map (Suggestion.closing d text) := by
  cases split : d.pieces? text with
  | some pieces =>
    have closes : (Suggestion.closing d text pieces).closes text = true :=
      Suggestion.closes_iff.mpr ⟨rfl, Suggestion.complete_closing d text pieces⟩
    rw [suggestions_of_done (stop_of_pieces? split), List.find?_cons_of_pos closes]
    rfl
  | none =>
    have unread : d.accepts text = false := by rw [accepts_eq_isSome, split]; rfl
    rw [Option.map_none, List.find?_eq_none]
    intro s member closes
    obtain ⟨real, same⟩ := Suggestion.closes_iff.mp closes
    obtain ⟨own, extension⟩ := extends_of_mem_suggestions member
    have longer := (extension.real real).longer_iff.mpr (own ▸ unread)
    rw [same] at longer
    exact Nat.lt_irrefl _ longer

theorem find?_contributing (definitions : List Definition) (text : Text) :
    (contributing definitions text).find? (·.accepts text) =
      definitions.find? (·.accepts text) := by
  unfold contributing
  split
  · rw [List.find?_filter]
    congr 1
    funext d
    cases accepted : d.accepts text with
    | true => simp [Definition.isResolved_of_accepts accepted]
    | false => simp
  · rfl

theorem findSome?_pieces (definitions : List Definition) (text : Text) :
    definitions.findSome? (fun d => (d.pieces? text).map (Suggestion.closing d text)) =
      (definitions.find? (·.accepts text)).bind fun d =>
        (d.pieces? text).map (Suggestion.closing d text) := by
  induction definitions with
  | nil => rfl
  | cons d definitions ih =>
    cases split : d.pieces? text <;> simp [Definition.accepts_eq_isSome, split, ih]

/-- The first suggestion that closes the draft is made by the first definition that accepts
it, whatever other definitions suggest and whatever is left out. -/
theorem find?_suggestionsFor (definitions : List Definition) (text : Text) :
    (suggestionsFor definitions text).find? (·.closes text) =
      (definitions.find? (·.accepts text)).bind fun d =>
        (d.pieces? text).map (Suggestion.closing d text) := by
  rw [suggestionsFor_eq, find?_foldl_addNew fun a b => Suggestion.closes_congr, List.nil_append,
    List.find?_flatMap]
  simp only [Definition.find?_closes]
  rw [findSome?_pieces, find?_contributing]

theorem matchText_of_isWord (whole : word.IsWord) :
    matchText definitions word =
      match definitions.find? (·.accepts word) with
      | none => .ok [.draft word]
      | some d => (d.build word).map fun filter => [.draft [], filter] := by
  obtain ⟨served, leftover⟩ :=
    @Allocation.allocate_singleton _ _ Definition.accepts definitions word
  simp only [matchText, Assignment.filters, Assignment.served, assign,
    Text.words_of_isWord whole, served, leftover]
  cases definitions.find? (·.accepts word) with
  | none => simp [Assignment.buildAll, Except.map, Text.unwords]
  | some d =>
    cases made : d.build word <;>
      simp [Assignment.buildAll, Except.map, Text.unwords, made, bind, Except.bind, pure,
        Except.pure]

theorem filters?_apply_closing :
    (apply [.draft text] (.closing d text pieces)).filters? =
      ((d.build text).map fun filter => [.draft [], filter]).mapError .factory := by
  rw [filters?_apply_build rfl rfl, Suggestion.complete_closing]
  rfl

/-- Where suggestions can be made for a word, a match leaves it in the draft exactly if none of
them closes the draft. Otherwise the first that does belongs to the first definition that
accepts the word, and applying it gives what the match gives. They can be made unless a count of
digits is too long to be written. -/
theorem closing_suggestion_matches (definitions : List Definition) {word : Text}
    (whole : word.IsWord) :
    (∀ offered, suggest definitions word = .ok offered →
      (matchText definitions word = .ok [.draft word] ↔
        ∀ s ∈ offered, s.template = false → s.complete word ≠ word) ∧
      (matchText definitions word ≠ .ok [.draft word] → ∃ s,
        offered.find? (·.closes word) = some s ∧
        definitions.find? (·.accepts word) = some s.definition ∧
        (apply [.draft word] s).filters? = (matchText definitions word).mapError .factory ∧
        matchText definitions word =
          (s.definition.build word).map fun filter => [.draft [], filter])) ∧
    ((∀ d ∈ definitions, ∀ part ∈ d.grammar, part.isLabelWritable = true) →
      ∃ offered, suggest definitions word = .ok offered) := by
  refine ⟨?_, fun writable => ⟨_, suggest_of_writable writable word⟩⟩
  intro offered given
  have first := find?_suggestionsFor definitions word
  rw [← suggest_eq_ok given] at first
  have closes_iff : (∀ s ∈ offered, s.template = false → s.complete word ≠ word) ↔
      offered.find? (·.closes word) = none := by
    simp [Suggestion.closes]
  rw [closes_iff]
  cases accepting : definitions.find? (·.accepts word) with
  | none =>
    rw [accepting] at first
    have matched : matchText definitions word = .ok [.draft word] := by
      rw [matchText_of_isWord whole, accepting]
    exact ⟨iff_of_true matched first, fun left => False.elim (left matched)⟩
  | some d =>
    have accepted : d.accepts word = true := (List.find?_eq_some_iff_append.mp accepting).1
    obtain ⟨pieces, split⟩ := Option.isSome_iff_exists.mp accepted
    rw [accepting, Option.bind_some, split, Option.map_some] at first
    have matched : matchText definitions word =
        (d.build word).map fun filter => [.draft [], filter] := by
      rw [matchText_of_isWord whole, accepting]
    have emptied : matchText definitions word ≠ .ok [.draft word] := by
      rw [matched]
      cases made : d.build word <;> simp [Except.map]
    refine ⟨iff_of_false emptied (by simp [first]), fun _ => ⟨_, first, rfl, ?_, matched⟩⟩
    rw [matched]
    exact filters?_apply_closing

def letter : Definition where
  tag := 0
  id := "letter"
  name := "Letter"
  grammar := [.literal ['a']]
  description := none
  source := none
  factory := none
  grammar_ne_nil := by decide
  grammar_valid := by decide

def ruler (count : Nat) (positive : 0 < count) : Definition where
  tag := 1
  id := "ruler"
  name := "Ruler"
  grammar := [.literal ['a'], .digits count ['n']]
  description := none
  source := none
  factory := none
  grammar_ne_nil := List.cons_ne_nil _ _
  grammar_valid := by simp [Part.Valid, positive]

theorem letter_closed : Text.IsWord ['a'] ∧ ∃ s offered,
    suggest [letter] ['a'] = .ok (s :: offered) ∧
    (apply [.draft ['a']] s).filters? = .ok [.draft [], .finished letter ['a']] := by
  have whole : Text.IsWord ['a'] := ⟨by decide, List.forall_mem_singleton.mpr rfl⟩
  have given : suggest [letter] ['a'] = .ok [.closing letter ['a'] [['a']]] := rfl
  have matched : matchText [letter] ['a'] = .ok [.draft [], .finished letter ['a']] := rfl
  obtain ⟨s, first, -, applied, -⟩ :=
    ((closing_suggestion_matches [letter] whole).1 _ given).2 (by rw [matched]; simp)
  obtain rfl := Option.some.inj (show some _ = some s from first)
  exact ⟨whole, _, _, given, by rw [applied, matched]; rfl⟩

theorem suggest_ruler {count : Nat} (positive : 0 < count)
    (long : Text.isWritable count = false) :
    suggest [letter, ruler count positive] ['a'] = .error .longCount := by
  have contributes : contributors [letter, ruler count positive] ['a'] =
      [(letter, letter.scan ['a']), (ruler count positive, ⟨.resolved, 1, 1⟩)] := rfl
  have silent : (ruler count positive).labelsWritable ['a'] ⟨.resolved, 1, 1⟩ = false := by
    have shown : labelled? ((ruler count positive).grammar.drop 1) [] = _ :=
      labelled?_digits positive ['n'] []
    simp only [Definition.labelsWritable, List.drop_succ_cons, List.drop_nil, shown,
      Option.all_some, Part.isLabelWritable, long]
  simp [suggest, contributes, silent]

/-- The match gives the word to the letter, but a label of the ruler cannot be written. -/
theorem letter_unsuggested :
    matchText [letter, ruler _ unwritable_pos] ['a'] =
      .ok [.draft [], .finished letter ['a']] ∧
    suggest [letter, ruler _ unwritable_pos] ['a'] = .error .longCount := by
  exact ⟨rfl, suggest_ruler unwritable_pos Text.isWritable_unwritable⟩

end SearchBar
