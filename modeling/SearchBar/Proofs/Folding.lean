import SearchBar.Suggestion
import SearchBar.Proofs.Part.Offers
import SearchBar.Proofs.Reading

namespace SearchBar

namespace Candidate

/-- What a candidate promises about the parts and the rest that it was made for: the parts it
covers, the others, and the pieces it is written in. -/
structure Covers (parts : List Part) (rest : Text) (c : Candidate) (before after : List Part)
    (pieces : List Text) : Prop where
  parts_eq : parts = before ++ after
  fits : Fits before pieces
  value_eq : c.value = pieces.flatten
  kind : (c.template = true ∧ c.reach = .stage ∧
      ∃ part ∈ after.head?, ∃ label ∈ part.placeholder?, c.showAs = c.value ++ label) ∨
    (c.template = false ∧ c.showAs = c.value ∧ rest <+: c.value ∧ before ≠ [] ∧
      (c.reach = .full ↔ after = []))

end Candidate

variable {part : Part} {parts before after : List Part} {pieces : List Text} {rest : Text}

theorem Part.placeholder?_of_completions {label : Text}
    (offered : part.completions rest = .placeholder label) : part.placeholder? = some label := by
  cases part with
  | literal word => cases offered
  | options choices => cases offered
  | number name =>
    simp only [completions] at offered
    split at offered
    · cases offered
      rfl
    · cases offered
  | digits count name =>
    simp only [completions] at offered
    split at offered
    · cases offered
    · split at offered
      · cases offered
        rfl
      · cases offered

theorem Candidate.Covers.behind {c : Candidate} {text : Text}
    (covers : c.Covers parts [] before after pieces) (allowed : part.Allows text)
    (begins : rest <+: text) :
    (c.behind text).Covers (part :: parts) rest (part :: before) after (text :: pieces) where
  parts_eq := congrArg (part :: ·) covers.parts_eq
  fits := .cons allowed covers.fits
  value_eq := congrArg (text ++ ·) covers.value_eq
  kind := by
    rcases covers.kind with ⟨template, stage, p, head, label, named, shown⟩ |
      ⟨real, shown, -, -, last⟩
    · refine .inl ⟨template, stage, p, head, label, named, ?_⟩
      show text ++ c.showAs = text ++ c.value ++ label
      rw [shown, List.append_assoc]
    · refine .inr ⟨real, congrArg (text ++ ·) shown, ?_, List.cons_ne_nil _ _, last⟩
      exact begins.trans (List.prefix_append _ _)

theorem covers_first {text : Text} {reach : Reach} (allowed : part.Allows text)
    (begins : rest <+: text) (last : reach = .full ↔ parts = []) :
    Candidate.Covers (part :: parts) rest ⟨text, text, reach, false⟩ [part] parts [text] where
  parts_eq := rfl
  fits := .cons allowed .nil
  value_eq := by simp
  kind := .inr ⟨rfl, rfl, begins, List.cons_ne_nil _ _, last⟩

theorem covers_label {label : Text} (offered : part.completions rest = .placeholder label) :
    Candidate.Covers (part :: parts) rest ⟨[], label, .stage, true⟩ [] (part :: parts) [] where
  parts_eq := rfl
  fits := .nil
  value_eq := rfl
  kind := .inl ⟨rfl, rfl, part, rfl, label, Part.placeholder?_of_completions offered, rfl⟩

theorem candidates_cover (valid : ∀ part ∈ parts, part.Valid) {c : Candidate}
    (member : c ∈ candidates parts rest) :
    ∃ before after pieces, c.Covers parts rest before after pieces := by
  induction parts generalizing rest c with
  | nil => cases member
  | cons part parts ih =>
    obtain ⟨first, others⟩ := List.forall_mem_cons.mp valid
    have exact := part.completions_exact first rest
    rw [candidates] at member
    split at member
    · rename_i label offered
      rw [List.mem_singleton.mp member]
      exact ⟨_, _, _, covers_label offered⟩
    · rename_i texts offered
      rw [offered] at exact
      have single : ∀ text ∈ texts, ∀ reach, (reach = .full ↔ parts = []) →
          Candidate.Covers (part :: parts) rest ⟨text, text, reach, false⟩ [part] parts [text] :=
        fun text listed reach last =>
          covers_first (exact.1 text listed).1 (exact.1 text listed).2 last
      split at member
      · rename_i last
        obtain ⟨text, listed, rfl⟩ := List.mem_map.mp member
        exact ⟨_, _, _, single text listed .full (by simpa using last)⟩
      · rename_i more
        split at member
        · rename_i text
          obtain ⟨tail, folded, rfl⟩ := List.mem_map.mp member
          obtain ⟨before, after, pieces, covers⟩ := ih others folded
          have only := exact.1 text (by simp)
          exact ⟨_, _, _, covers.behind only.1 only.2⟩
        · obtain ⟨text, listed, rfl⟩ := List.mem_map.mp member
          exact ⟨_, _, _, single text listed .stage (by simpa using more)⟩

theorem candidates_ne_nil (valid : ∀ p ∈ part :: parts, p.Valid)
    (leads : part.Leads rest) : candidates (part :: parts) rest ≠ [] := by
  induction parts generalizing part rest with
  | nil =>
    have exact := part.completions_exact (valid part (by simp)) rest
    rw [candidates]
    split
    · simp
    · rename_i texts offered
      rw [offered] at exact
      have some : texts ≠ [] := fun empty => exact.2 empty leads
      simpa using some
  | cons next parts ih =>
    obtain ⟨first, others⟩ := List.forall_mem_cons.mp valid
    have exact := part.completions_exact first rest
    rw [candidates]
    split
    · simp
    · rename_i texts offered
      rw [offered] at exact
      have some : texts ≠ [] := fun empty => exact.2 empty leads
      rw [if_neg (by simp)]
      split
      · simpa using ih others (Part.leads_nil (others next (by simp)))
      · simpa using some

theorem candidates_eq_nil (valid : part.Valid) (lost : ¬ part.Leads rest) :
    candidates (part :: parts) rest = [] := by
  have exact := part.completions_exact valid rest
  rw [candidates]
  split
  · rename_i label offered
    rw [offered] at exact
    exact False.elim (lost exact.2)
  · rename_i texts offered
    rw [offered] at exact
    have none : texts = [] := by
      apply List.eq_nil_iff_forall_not_mem.mpr
      intro text listed
      exact lost ⟨text, exact.1 text listed⟩
    simp [none]

/-- Whatever values a text is to go on in, one candidate goes on in the first of them. -/
theorem exists_candidate_of_fits {value : Text} {values : List Text}
    (valid : ∀ p ∈ part :: parts, p.Valid) (awaits : part.Awaits rest)
    (allowed : part.Allows value) (begins : rest <+: value) (fits : Fits parts values) :
    ∃ c ∈ candidates (part :: parts) rest, ∃ before after pieces behind,
      c.Covers (part :: parts) rest before after pieces ∧ value :: values = pieces ++ behind ∧
        Fits after behind := by
  induction fits generalizing part rest value with
  | nil =>
    rw [candidates]
    cases offered : part.completions rest with
    | placeholder label =>
      exact ⟨_, List.mem_singleton.mpr rfl, _, _, _, _, covers_label offered, rfl,
        .cons allowed .nil⟩
    | values texts =>
      have member := Part.mem_of_completions awaits offered allowed begins
      refine ⟨_, List.mem_map.mpr ⟨value, member, rfl⟩, _, _, _, [],
        covers_first allowed begins (iff_of_true rfl rfl), rfl, .nil⟩
  | @cons next following parts values nextAllowed fits ih =>
    obtain ⟨-, others⟩ := List.forall_mem_cons.mp valid
    rw [candidates]
    cases offered : part.completions rest with
    | placeholder label =>
      exact ⟨_, List.mem_singleton.mpr rfl, _, _, _, _, covers_label offered, rfl,
        .cons allowed (.cons nextAllowed fits)⟩
    | values texts =>
      have member := Part.mem_of_completions awaits offered allowed begins
      simp only [List.isEmpty_cons, Bool.false_eq_true, if_false]
      split
      · -- a single value is folded into the candidates of the parts behind
        obtain rfl := List.mem_singleton.mp member
        obtain ⟨c, made, before, after, pieces, behind, covers, values_eq, remaining⟩ :=
          ih others (Part.awaits_nil (others next (by simp))) nextAllowed List.nil_prefix
        exact ⟨_, List.mem_map.mpr ⟨c, made, rfl⟩, _, _, _, behind, covers.behind allowed begins,
          congrArg (value :: ·) values_eq, remaining⟩
      · refine ⟨_, List.mem_map.mpr ⟨value, member, rfl⟩, _, _, _, following :: values,
          covers_first allowed begins ?_, rfl, .cons nextAllowed fits⟩
        exact iff_of_false Reach.noConfusion (List.cons_ne_nil _ _)

theorem candidates_distinct (valid : ∀ p ∈ parts, p.Valid) :
    (candidates parts rest).Pairwise fun a b => a.value ≠ b.value := by
  induction parts generalizing rest with
  | nil => exact .nil
  | cons part parts ih =>
    obtain ⟨first, others⟩ := List.forall_mem_cons.mp valid
    rw [candidates]
    split
    · exact List.pairwise_singleton _ _
    · rename_i texts offered
      have nodup := Part.completions_nodup first offered
      split
      · exact List.pairwise_map.mpr nodup
      · split
        · apply List.pairwise_map.mpr
          exact (ih others).imp fun apart same => apart (List.append_cancel_left same)
        · exact List.pairwise_map.mpr nodup

theorem labelled?_digits {count : Nat} (positive : 0 < count) (name : Text) (parts : List Part) :
    labelled? (.digits count name :: parts) [] = some (.digits count name) := by
  simp [labelled?, Part.completions, Part.isNumeral, positive]

theorem mem_of_labelled? (named : labelled? parts rest = some part) : part ∈ parts := by
  induction parts generalizing rest with
  | nil => cases named
  | cons first parts ih =>
    rw [labelled?] at named
    split at named
    · cases named
      simp
    · exact List.mem_cons_of_mem first (ih named)
    · cases named

end SearchBar
