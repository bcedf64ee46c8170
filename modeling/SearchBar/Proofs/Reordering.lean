import SearchBar.Proofs.Assigning
import SearchBar.Proofs.Separation
import SearchBar.Proofs.Suggesting
import Mathlib.Data.Multiset.Basic

/-! Options in another order.
What a part takes of a text, and whether the text breaks off inside a value, only depends on the
values that it allows, and these are the same in every order of its options. So a text is scanned,
split and parsed alike; its suggestions are the same ones, in another order. -/
namespace SearchBar

namespace Part

def Reordered : Part → Part → Prop
  | options choices, options others => choices.Perm others
  | part, other => part = other

variable {part other : Part} {text : Text}

theorem Reordered.refl (part : Part) : part.Reordered part := by
  cases part with
  | options choices => exact List.Perm.refl choices
  | literal _ | number _ | digits _ _ => rfl

theorem Reordered.cases (same : part.Reordered other) :
    part = other ∨
      ∃ choices others, part = options choices ∧ other = options others ∧ choices.Perm others := by
  unfold Reordered at same
  split at same
  · exact .inr ⟨_, _, rfl, rfl, same⟩
  · exact .inl same

theorem Reordered.allows_iff (same : part.Reordered other) (value : Text) :
    part.Allows value ↔ other.Allows value := by
  rcases same.cases with rfl | ⟨choices, others, rfl, rfl, perm⟩
  · exact Iff.rfl
  · exact perm.mem_iff

section Values

variable (valid : part.Valid) (otherValid : other.Valid)
  (values : ∀ value, part.Allows value ↔ other.Allows value)

include values in
theorem longest_congr (value : Text) : part.Longest text value ↔ other.Longest text value := by
  constructor
  · rintro ⟨allowed, begins, greatest⟩
    exact ⟨(values value).mp allowed, begins,
      fun longer more => greatest longer ((values longer).mpr more)⟩
  · rintro ⟨allowed, begins, greatest⟩
    exact ⟨(values value).mpr allowed, begins,
      fun longer more => greatest longer ((values longer).mp more)⟩

include valid otherValid values

theorem consume?_congr (text : Text) : part.consume? text = other.consume? text := by
  apply Option.ext
  intro n
  rw [consume?_eq_some_iff valid, consume?_eq_some_iff otherValid]
  simp only [longest_congr values]

theorem isBegun_congr (untaken : part.consume? text = none) :
    part.isBegun text = other.isBegun text := by
  have otherUntaken : other.consume? text = none :=
    (consume?_congr valid otherValid values text).symm.trans untaken
  rw [Bool.eq_iff_iff, isBegun_iff valid untaken, isBegun_iff otherValid otherUntaken]
  simp only [Leads, values]

end Values

theorem Reordered.capture_eq (same : part.Reordered other) (piece : Text) :
    part.capture piece = other.capture piece := by
  rcases same.cases with rfl | ⟨choices, others, rfl, rfl, -⟩ <;> rfl

theorem Reordered.offers (same : part.Reordered other) (text : Text) :
    (∃ label, part = other ∧ part.completions text = .placeholder label) ∨
      ∃ texts others, part.completions text = .values texts ∧
        other.completions text = .values others ∧ texts.Perm others := by
  rcases same.cases with rfl | ⟨choices, others, rfl, rfl, perm⟩
  · cases offered : part.completions text with
    | placeholder label => exact .inl ⟨label, rfl, rfl⟩
    | values texts => exact .inr ⟨texts, texts, rfl, rfl, .refl texts⟩
  · exact .inr ⟨_, _, rfl, rfl, perm.filter _⟩

end Part

variable {parts others : List Part} {pieces : List Text}

theorem scanFrom_reordered (same : List.Forall₂ Part.Reordered parts others)
    (valid : ∀ p ∈ parts, p.Valid) (otherValid : ∀ p ∈ others, p.Valid)
    (number position last : Nat) (text : Text) :
    scanFrom number position last parts text = scanFrom number position last others text := by
  induction same generalizing number position last text with
  | nil => rfl
  | @cons part other parts others first _ ih =>
    obtain ⟨own, behind⟩ := List.forall_mem_cons.mp valid
    obtain ⟨otherOwn, otherBehind⟩ := List.forall_mem_cons.mp otherValid
    cases text with
    | nil => rfl
    | cons c rest =>
      have taken := Part.consume?_congr own otherOwn first.allows_iff (c :: rest)
      rw [scanFrom, scanFrom, ← taken]
      cases found : part.consume? (c :: rest) with
      | some n => exact ih behind otherBehind _ _ _ _
      | none =>
        have begun := Part.isBegun_congr own otherOwn first.allows_iff found
        simp only [begun]

theorem split_reordered (same : List.Forall₂ Part.Reordered parts others)
    (valid : ∀ p ∈ parts, p.Valid) (otherValid : ∀ p ∈ others, p.Valid) (text : Text) :
    split parts text = split others text := by
  induction same generalizing text with
  | nil => rfl
  | cons first _ ih =>
    obtain ⟨own, behind⟩ := List.forall_mem_cons.mp valid
    obtain ⟨otherOwn, otherBehind⟩ := List.forall_mem_cons.mp otherValid
    simp only [split, Part.consume?_congr own otherOwn first.allows_iff text,
      ih behind otherBehind]

theorem captures_reordered (same : List.Forall₂ Part.Reordered parts others)
    (pieces : List Text) : captures parts pieces = captures others pieces := by
  induction same generalizing pieces with
  | nil => rfl
  | cons first _ ih =>
    cases pieces with
    | nil => rfl
    | cons piece pieces => simp only [captures, first.capture_eq, ih]

theorem candidates_reordered (same : List.Forall₂ Part.Reordered parts others) (rest : Text) :
    (candidates parts rest).Perm (candidates others rest) := by
  induction same generalizing rest with
  | nil => exact .refl _
  | @cons part other parts others first tail ih =>
    have last : parts.isEmpty = others.isEmpty := by cases tail <;> rfl
    rw [candidates, candidates, last]
    rcases first.offers rest with ⟨label, rfl, offered⟩ | ⟨texts, more, offered, otherOffered, perm⟩
    · rw [offered]
    · rw [offered, otherOffered]
      cases others.isEmpty with
      | true => exact perm.map _
      | false =>
        simp only [Bool.false_eq_true, if_false]
        split
        · obtain rfl := List.singleton_perm.mp perm
          exact (ih []).map _
        · rename_i several
          split
          · exact absurd (List.perm_singleton.mp perm) (several _)
          · exact perm.map _

theorem labelled?_reordered (same : List.Forall₂ Part.Reordered parts others) (rest : Text) :
    labelled? parts rest = labelled? others rest := by
  induction same generalizing rest with
  | nil => rfl
  | @cons part other parts others first _ ih =>
    rw [labelled?, labelled?]
    rcases first.offers rest with ⟨label, rfl, offered⟩ | ⟨texts, more, offered, otherOffered, perm⟩
    · rw [offered]
    · rw [offered, otherOffered]
      obtain _ | ⟨text, _ | ⟨second, texts⟩⟩ := texts
      · obtain rfl := List.nil_perm.mp perm
        rfl
      · obtain rfl := List.singleton_perm.mp perm
        exact ih []
      · obtain _ | ⟨_, _ | ⟨_, _⟩⟩ := more
        · exact absurd perm.length_eq (by simp)
        · exact absurd perm.length_eq (by simp)
        · rfl

namespace Definition

def Reordered (d e : Definition) : Prop :=
  List.Forall₂ Part.Reordered d.grammar e.grammar

theorem Reordered.refl (d : Definition) : d.Reordered d :=
  List.forall₂_same.mpr fun part _ => .refl part

variable {d e : Definition}

theorem Reordered.pieces?_eq (same : d.Reordered e) (text : Text) :
    e.pieces? text = d.pieces? text :=
  (split_reordered same d.grammar_valid e.grammar_valid text).symm

theorem Reordered.accepts_eq (same : d.Reordered e) (text : Text) :
    e.accepts text = d.accepts text :=
  congrArg Option.isSome (same.pieces?_eq text)

theorem Reordered.parse_eq (same : d.Reordered e) (text : Text) :
    ({ e with id := d.id } : Definition).parse text = d.parse text := by
  have split : ({ e with id := d.id } : Definition).pieces? text = d.pieces? text :=
    same.pieces?_eq text
  rw [parse, parse, split]
  cases d.pieces? text with
  | none => rfl
  | some pieces => exact (captures_reordered same pieces).symm

theorem Reordered.scan_eq (same : d.Reordered e) (text : Text) : e.scan text = d.scan text :=
  (scanFrom_reordered same d.grammar_valid e.grammar_valid 0 0 0 text).symm

end Definition

def Suggestion.handedTo (e : Definition) (s : Suggestion) : Suggestion :=
  { s with definition := e }

section Suggestions

variable {d e : Definition}

theorem suggestionsAt_reordered (same : d.Reordered e) (text : Text) (scan : Scan) :
    (e.suggestionsAt text scan).Perm ((d.suggestionsAt text scan).map (.handedTo e)) := by
  have listed : ((candidates (e.grammar.drop scan.part) (text.drop scan.position)).map
      (Suggestion.ofCandidate e scan.position)).Perm
      (((candidates (d.grammar.drop scan.part) (text.drop scan.position)).map
        (Suggestion.ofCandidate d scan.position)).map (.handedTo e)) := by
    have remaining := List.forall₂_drop scan.part same
    rw [List.map_map]
    exact ((candidates_reordered remaining (text.drop scan.position)).map _).symm
  unfold Definition.suggestionsAt
  cases scan.state with
  | complete => exact .refl _
  | resolved => exact listed
  | begun => exact listed
  | unmatched => exact .nil
  | overmatched => exact .nil

theorem labelsWritable_reordered (same : d.Reordered e) (text : Text) (scan : Scan) :
    e.labelsWritable text scan = d.labelsWritable text scan := by
  simp only [Definition.labelsWritable,
    labelled?_reordered (List.forall₂_drop scan.part same) (text.drop scan.position)]

theorem suggest_reordered (same : d.Reordered e) (text : Text) :
    (e.suggest text).map Multiset.ofList =
      (d.suggest text).map fun offered => Multiset.ofList (offered.map (.handedTo e)) := by
  have perm := suggestionsAt_reordered same text (d.scan text)
  rw [Definition.suggest, Definition.suggest, Definition.suggestions, same.scan_eq,
    labelsWritable_reordered same]
  split
  · exact congrArg Except.ok (Multiset.coe_eq_coe.mpr perm)
  · rfl

end Suggestions

section Matching

variable {definitions replaced : List Definition}

theorem Allocation.allocate_congr {α β : Type} {suits : α → β → Bool} {places others : List α}
    (alike : List.Forall₂ (fun place other => ∀ item, suits place item = suits other item)
      places others) (items : List β) :
    (allocate suits places items).1.map Prod.snd = (allocate suits others items).1.map Prod.snd ∧
      (allocate suits places items).2 = (allocate suits others items).2 := by
  induction alike generalizing items with
  | nil => exact ⟨rfl, rfl⟩
  | @cons place other places others first _ ih =>
    have chosen : suits place = suits other := funext first
    obtain ⟨held, left⟩ := ih (items.eraseP (suits other))
    rw [allocate_cons, allocate_cons, chosen]
    exact ⟨congrArg (items.find? (suits other) :: ·) held, left⟩

theorem assign_reordered (same : List.Forall₂ Definition.Reordered definitions replaced)
    (text : Text) :
    (assign replaced text).places.map Prod.snd = (assign definitions text).places.map Prod.snd ∧
      (assign replaced text).leftover = (assign definitions text).leftover := by
  have alike : List.Forall₂
      (fun d e => ∀ word, Definition.accepts d word = Definition.accepts e word)
      definitions replaced :=
    same.imp fun _ _ own word => (own.accepts_eq word).symm
  obtain ⟨held, left⟩ := Allocation.allocate_congr alike text.words
  exact ⟨held.symm, left.symm⟩

theorem wordPlace_reordered (same : List.Forall₂ Definition.Reordered definitions replaced)
    (text : Text) : wordPlace replaced text = wordPlace definitions text := by
  let suits (d : Definition) (word : Text × Nat) : Bool := d.accepts word.1
  have alike : List.Forall₂ (fun d e => ∀ word, suits d word = suits e word)
      definitions replaced :=
    same.imp fun _ _ own (word : Text × Nat) => (own.accepts_eq word.1).symm
  obtain ⟨held, -⟩ := Allocation.allocate_congr alike text.words.zipIdx
  funext i
  have found := congrArg (List.findIdx? fun held => held.map Prod.snd == some i) held
  rw [List.findIdx?_map, List.findIdx?_map] at found
  exact found.symm

end Matching

/-- The order of options shows in the order of suggestions and nowhere else. Definitions may be
replaced by such ones, one or several at any places, without any word going to another place. -/
theorem reordered_alike {d e : Definition} (same : d.Reordered e) :
    (∀ text, e.accepts text = d.accepts text ∧
      ({ e with id := d.id } : Definition).parse text = d.parse text ∧
      e.scan text = d.scan text ∧
      (e.suggest text).map Multiset.ofList =
        (d.suggest text).map fun offered => Multiset.ofList (offered.map (.handedTo e))) ∧
    ∀ definitions replaced, List.Forall₂ (fun x y => y = x ∨ x = d ∧ y = e) definitions replaced →
      ∀ submitted, wordPlace replaced submitted = wordPlace definitions submitted ∧
        (assign replaced submitted).places.map Prod.snd =
          (assign definitions submitted).places.map Prod.snd ∧
        (assign replaced submitted).leftover = (assign definitions submitted).leftover := by
  refine ⟨fun text => ⟨same.accepts_eq text, same.parse_eq text, same.scan_eq text,
    suggest_reordered same text⟩, fun definitions replaced each submitted => ?_⟩
  have alike : List.Forall₂ Definition.Reordered definitions replaced := by
    refine each.imp fun x y => ?_
    rintro (rfl | ⟨rfl, rfl⟩)
    · exact .refl _
    · exact same
  exact ⟨wordPlace_reordered alike submitted, assign_reordered alike submitted⟩

def limitTurned : Definition :=
  { limit with
    tag := 1, id := "turned"
    grammar := [.literal ['n'], .options [['<', '='], ['<']], .number ['n']]
    grammar_ne_nil := by decide
    grammar_valid := by decide }

/-- The longer sign is taken in either order, and each order is the one in which it is offered. -/
theorem limit_turned : limit.Reordered limitTurned ∧
    limitTurned.scan ['n', '<', '=', '4'] = limit.scan ['n', '<', '=', '4'] ∧
    (∃ offered others, limit.suggest ['n'] = .ok offered ∧ limitTurned.suggest ['n'] = .ok others ∧
      offered.map (·.value) = [['<'], ['<', '=']] ∧ others.map (·.value) = [['<', '='], ['<']] ∧
      Multiset.ofList others = Multiset.ofList (offered.map (.handedTo limitTurned))) ∧
    wordPlace [limitTurned, limit] ['n', '<', '1'] = wordPlace [limit, limit] ['n', '<', '1'] := by
  have same : limit.Reordered limitTurned := by
    refine .cons rfl (.cons ?_ (.cons rfl .nil))
    exact List.Perm.swap ['<', '='] ['<'] []
  obtain ⟨alike, places⟩ := reordered_alike same
  have suggested := (alike ['n']).2.2.2
  refine ⟨same, (alike ['n', '<', '=', '4']).2.2.1,
    ⟨_, _, rfl, rfl, rfl, rfl, Except.ok.inj suggested⟩, ?_⟩
  exact (places _ _ (.cons (.inr ⟨rfl, rfl⟩) (.cons (.inl rfl) .nil)) ['n', '<', '1']).1

end SearchBar
