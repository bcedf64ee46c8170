import SearchBar.Proofs.Outlook
import Mathlib.Data.List.Chain

/-! Fixed text and the parts that it is cut into.
A set of one option is a fixed text, and fixed texts side by side can be joined. A scan of the
joined parts ends elsewhere, inside a part instead of between two of them, but the draft can be
extended in the same ways: what is left of the draft at a joined part is folded into the same
texts as before. -/
namespace SearchBar

def Part.plain : Part → Part
  | options [text] => literal text
  | part => part

def Part.isLiteral : Part → Bool
  | literal _ => true
  | options _ | number _ | digits _ _ => false

def joinFront : Part → List Part → List Part
  | .literal text, .literal more :: parts => .literal (text ++ more) :: parts
  | part, parts => part :: parts

/-- The parts with every run of fixed text in one piece. -/
def fuse (parts : List Part) : List Part :=
  (parts.map Part.plain).foldr joinFront []

/-- Two lists of parts that accept the same texts and extend every text in the same ways. -/
structure Alike (parts others : List Part) : Prop where
  nil_iff : parts = [] ↔ others = []
  accepts : ∀ text, (split parts text).isSome = (split others text).isSome
  outlook : ∀ text, outlook parts text = outlook others text

variable {part next : Part} {parts others : List Part} {text rest : Text}

theorem isSome_split_cons (part : Part) (parts : List Part) (text : Text) :
    (split (part :: parts) text).isSome =
      match part.consume? text with
      | none => false
      | some n => (split parts (text.drop n)).isSome := by
  rw [split]
  cases part.consume? text <;> simp

namespace Alike

theorem refl (parts : List Part) : Alike parts parts :=
  ⟨Iff.rfl, fun _ => rfl, fun _ => rfl⟩

theorem trans {third : List Part} (first : Alike parts others) (second : Alike others third) :
    Alike parts third :=
  ⟨first.nil_iff.trans second.nil_iff,
    fun text => (first.accepts text).trans (second.accepts text),
    fun text => (first.outlook text).trans (second.outlook text)⟩

/-- Parts that are alike stay so behind a part, and behind two parts that do the same. -/
theorem cons (alike : Alike parts others) (valid : ∀ p ∈ parts, p.Valid)
    (otherValid : ∀ p ∈ others, p.Valid) (takes : ∀ text, part.consume? text = next.consume? text)
    (offers : ∀ text, part.completions text = next.completions text)
    (labels : part.isLabelWritable = next.isLabelWritable) :
    Alike (part :: parts) (next :: others) where
  nil_iff := by simp
  accepts text := by
    rw [isSome_split_cons, isSome_split_cons, takes]
    cases next.consume? text with
    | none => rfl
    | some n => exact alike.accepts (text.drop n)
  outlook text := by
    have folded : parts ≠ [] → ways parts [] = ways others [] := by
      intro more
      rw [← outlook_nil valid more, ← outlook_nil otherValid (mt alike.nil_iff.mpr more),
        alike.outlook]
    have found : ∀ rest, ways (part :: parts) rest = ways (next :: others) rest := by
      intro rest
      rw [ways_cons, ways_cons, offers, labels]
      by_cases last : parts = []
      · simp only [if_pos last, if_pos (alike.nil_iff.mp last)]
      · simp only [if_neg last, if_neg (mt alike.nil_iff.mpr last), folded last]
    rw [SearchBar.outlook, SearchBar.outlook, takes]
    cases next.consume? text with
    | none => exact found text
    | some n => simp only [alike.outlook]

end Alike

section Literals

variable {a b : Text}

theorem consume?_literal_append (a b rest : Text) :
    (Part.literal (a ++ b)).consume? (a ++ rest) =
      ((Part.literal b).consume? rest).map (a.length + ·) := by
  by_cases begins : b <+: rest
  · have joined : a ++ b <+: a ++ rest := (List.prefix_append_right_inj a).mpr begins
    simp [Part.consume?, begins, joined]
  · have apart : ¬ a ++ b <+: a ++ rest := mt (List.prefix_append_right_inj a).mp begins
    simp [Part.consume?, begins, apart]

theorem ways_literal (word : Text) (parts : List Part) (rest : Text) :
    ways (.literal word :: parts) rest =
      if rest <+: word then
        if parts = [] then .ok [⟨word, .full, false⟩]
        else (ways parts []).map (List.map (·.behind word))
      else .ok [] := by
  rw [ways_cons]
  by_cases begins : rest <+: word
  · have offered : (Part.literal word).completions rest = .values [word] := by
      simp [Part.completions, begins]
    simp only [offered, if_pos begins, List.map_singleton]
  · have offered : (Part.literal word).completions rest = .values [] := by
      simp [Part.completions, begins]
    simp [offered, begins]

theorem ways_literal_append (a b : Text) (parts : List Part) (rest : Text) :
    ways (.literal (a ++ b) :: parts) (a ++ rest) =
      (ways (.literal b :: parts) rest).map (List.map (·.behind a)) := by
  rw [ways_literal, ways_literal]
  simp only [List.prefix_append_right_inj]
  split
  · split
    · rfl
    · rw [behind_behind]
  · rfl

theorem not_begins_append (apart : ¬ a <+: text) : ¬ a ++ b <+: text :=
  fun begins => apart ((List.prefix_append a b).trans begins)

theorem ways_literal_literal (a b : Text) (parts : List Part) (apart : ¬ a <+: rest) :
    ways (.literal a :: .literal b :: parts) rest = ways (.literal (a ++ b) :: parts) rest := by
  -- a text that does not reach behind the first one is a beginning of both or of none
  have within : rest <+: a ++ b ↔ rest <+: a := by
    constructor
    · intro begins
      rcases List.prefix_or_prefix_of_prefix begins (List.prefix_append a b) with shorter | longer
      · exact shorter
      · exact absurd longer apart
    · exact fun begins => begins.trans (List.prefix_append a b)
  have folded := ways_literal_append a b parts []
  rw [ways_literal a, if_neg (List.cons_ne_nil _ _), ← folded, List.append_nil]
  rw [ways_literal, ways_literal]
  by_cases begins : rest <+: a
  · simp [begins, within]
  · simp [begins, within]

theorem outlook_literal_append (a b : Text) (parts : List Part) (rest : Text) :
    outlook (.literal (a ++ b) :: parts) (a ++ rest) =
      (outlook (.literal b :: parts) rest).map (List.map (·.behind a)) := by
  rw [outlook, outlook, consume?_literal_append]
  cases (Part.literal b).consume? rest with
  | none => exact ways_literal_append a b parts rest
  | some n =>
    simp only [Option.map_some, behind_behind, List.drop_length_add_append,
      List.take_length_add_append]

theorem alike_join (a b : Text) (parts : List Part) :
    Alike (.literal a :: .literal b :: parts) (.literal (a ++ b) :: parts) where
  nil_iff := by simp
  accepts text := by
    rw [isSome_split_cons, isSome_split_cons]
    by_cases begins : a <+: text
    · obtain ⟨rest, rfl⟩ := begins
      have first : (Part.literal a).consume? (a ++ rest) = some a.length := by
        simp [Part.consume?]
      rw [first, consume?_literal_append]
      simp only [List.drop_left, isSome_split_cons]
      cases (Part.literal b).consume? rest with
      | none => rfl
      | some n => simp only [Option.map_some, List.drop_length_add_append]
    · simp [Part.consume?, begins, not_begins_append begins]
  outlook text := by
    by_cases begins : a <+: text
    · obtain ⟨rest, rfl⟩ := begins
      have first : (Part.literal a).consume? (a ++ rest) = some a.length := by
        simp [Part.consume?]
      rw [outlook_literal_append, outlook, first]
      simp only [List.drop_left, List.take_left]
    · have second := not_begins_append (b := b) begins
      rw [outlook, outlook]
      simp only [Part.consume?, List.isPrefixOf_iff_prefix, begins, second, if_false]
      exact ways_literal_literal a b parts begins

end Literals

namespace Part

theorem plain_cases (part : Part) : (∃ choice, part = options [choice]) ∨ part.plain = part := by
  match part with
  | options [choice] => exact .inl ⟨choice, rfl⟩
  | literal _ | options [] | options (_ :: _ :: _) | number _ | digits _ _ => exact .inr rfl

theorem consume?_plain (part : Part) (text : Text) :
    part.plain.consume? text = part.consume? text := by
  obtain ⟨choice, rfl⟩ | same := part.plain_cases
  · by_cases begins : choice <+: text <;> simp [plain, consume?, begins]
  · rw [same]

theorem completions_plain (part : Part) (text : Text) :
    part.plain.completions text = part.completions text := by
  obtain ⟨choice, rfl⟩ | same := part.plain_cases
  · by_cases begins : text <+: choice <;> simp [plain, completions, begins]
  · rw [same]

theorem isLabelWritable_plain (part : Part) :
    part.plain.isLabelWritable = part.isLabelWritable := by
  obtain ⟨choice, rfl⟩ | same := part.plain_cases
  · rfl
  · rw [same]

theorem plain_valid (valid : part.Valid) : part.plain.Valid := by
  obtain ⟨choice, rfl⟩ | same := part.plain_cases
  · exact valid.2.1 choice List.mem_cons_self
  · rw [same]
    exact valid

theorem plain_plain (part : Part) : part.plain.plain = part.plain := by
  obtain ⟨choice, rfl⟩ | same := part.plain_cases
  · rfl
  · rw [same, same]

end Part

theorem joinFront_cases (part : Part) (parts : List Part) :
    (∃ a b rest, part = .literal a ∧ parts = .literal b :: rest ∧
      joinFront part parts = .literal (a ++ b) :: rest) ∨
    (joinFront part parts = part :: parts ∧
      ∀ next ∈ parts.head?, ¬ (part.isLiteral = true ∧ next.isLiteral = true)) := by
  match part, parts with
  | .literal a, .literal b :: rest => exact .inl ⟨a, b, rest, rfl, rfl, rfl⟩
  | .literal _, [] | .options _, [] | .number _, [] | .digits _ _, [] =>
    exact .inr ⟨rfl, nofun⟩
  | .literal _, .options _ :: _ | .literal _, .number _ :: _ | .literal _, .digits _ _ :: _
  | .options _, _ :: _ | .number _, _ :: _ | .digits _ _, _ :: _ =>
    refine .inr ⟨rfl, fun next head => ?_⟩
    cases head
    simp [Part.isLiteral]

theorem fuse_cons (part : Part) (parts : List Part) :
    fuse (part :: parts) = joinFront part.plain (fuse parts) :=
  rfl

theorem valid_fuse (valid : ∀ p ∈ parts, p.Valid) : ∀ p ∈ fuse parts, p.Valid := by
  induction parts with
  | nil => exact List.forall_mem_nil _
  | cons part parts ih =>
    obtain ⟨first, behind⟩ := List.forall_mem_cons.mp valid
    have known := ih behind
    rw [fuse_cons]
    rcases joinFront_cases part.plain (fuse parts) with
      ⟨a, b, rest, -, same, joined⟩ | ⟨front, -⟩
    · rw [same] at known
      obtain ⟨word, others⟩ := List.forall_mem_cons.mp known
      have nonempty : a ++ b ≠ [] := fun empty => word (List.append_eq_nil_iff.mp empty).2
      rw [joined]
      exact List.forall_mem_cons.mpr ⟨nonempty, others⟩
    · rw [front]
      exact List.forall_mem_cons.mpr ⟨Part.plain_valid first, known⟩

theorem alike_fuse (valid : ∀ p ∈ parts, p.Valid) : Alike parts (fuse parts) := by
  induction parts with
  | nil => exact .refl []
  | cons part parts ih =>
    obtain ⟨-, behind⟩ := List.forall_mem_cons.mp valid
    have plain : Alike (part :: parts) (part.plain :: fuse parts) :=
      (ih behind).cons behind (valid_fuse behind) (fun text => (part.consume?_plain text).symm)
        (fun text => (part.completions_plain text).symm) part.isLabelWritable_plain.symm
    rw [fuse_cons]
    rcases joinFront_cases part.plain (fuse parts) with
      ⟨a, b, rest, own, same, joined⟩ | ⟨front, -⟩
    · rw [joined]
      rw [own, same] at plain
      exact plain.trans (alike_join a b rest)
    · rwa [front]

/-- No set of one option is left, and no two fixed texts stand side by side. -/
theorem fuse_fused (parts : List Part) :
    (∀ p ∈ fuse parts, p.plain = p) ∧
      (fuse parts).IsChain fun p q => ¬ (p.isLiteral = true ∧ q.isLiteral = true) := by
  induction parts with
  | nil => exact ⟨List.forall_mem_nil _, .nil⟩
  | cons part parts ih =>
    obtain ⟨plain, chain⟩ := ih
    rw [fuse_cons]
    rcases joinFront_cases part.plain (fuse parts) with
      ⟨a, b, rest, -, same, joined⟩ | ⟨front, apart⟩
    · rw [same] at plain chain
      rw [joined]
      refine ⟨List.forall_mem_cons.mpr ⟨rfl, (List.forall_mem_cons.mp plain).2⟩, ?_⟩
      cases chain with
      | singleton => exact .singleton _
      | cons_cons next tail => exact .cons_cons next tail
    · rw [front]
      refine ⟨List.forall_mem_cons.mpr ⟨part.plain_plain, plain⟩, ?_⟩
      exact List.isChain_cons.mpr ⟨apart, chain⟩

example : fuse [.literal ['s'], .options [['t', 'a']], .literal ['t'], .options [['='], ['<']],
    .literal ['n'], .number ['n']] =
      [.literal ['s', 't', 'a', 't'], .options [['='], ['<']], .literal ['n'], .number ['n']] := by
  decide

def Definition.fused (d : Definition) : Definition :=
  { d with
    grammar := fuse d.grammar
    grammar_ne_nil := mt (alike_fuse d.grammar_valid).nil_iff.mpr d.grammar_ne_nil
    grammar_valid := valid_fuse d.grammar_valid }

/-- How fixed text is cut into parts shows neither in the texts that are accepted nor in what the
suggestions make of a draft: they are the same and in the same order. -/
theorem fused_alike (d : Definition) (text : Text) :
    ((∀ p ∈ d.fused.grammar, p.plain = p) ∧
      d.fused.grammar.IsChain fun p q => ¬ (p.isLiteral = true ∧ q.isLiteral = true)) ∧
    d.fused.accepts text = d.accepts text ∧
    (d.fused.suggest text).map (List.map (Suggestion.extension text)) =
      (d.suggest text).map (List.map (Suggestion.extension text)) := by
  have alike := alike_fuse d.grammar_valid
  refine ⟨fuse_fused d.grammar, (alike.accepts text).symm, ?_⟩
  rw [extensions_suggest, extensions_suggest]
  exact (alike.outlook text).symm

end SearchBar
