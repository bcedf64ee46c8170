import SearchBar.Proofs.Suggesting
import Mathlib.Data.List.Induction
import Mathlib.Data.List.Nodup

namespace SearchBar

namespace Definition

/-- A tag stands for one definition, which may be there more than once. -/
def ToldApart (definitions : List Definition) : Prop :=
  ∀ d ∈ definitions, ∀ e ∈ definitions, d.same e = true → d = e

variable {definitions others : List Definition} {d e : Definition} {text : Text}

theorem same_refl (d : Definition) : d.same d = true :=
  beq_self_eq_true d.tag

theorem toldApart_of_nodup (distinct : (definitions.map Definition.tag).Nodup) :
    ToldApart definitions :=
  fun _ first _ second same => List.inj_on_of_nodup_map distinct first second (beq_iff_eq.mp same)

theorem ToldApart.subset (told : ToldApart definitions) (within : others ⊆ definitions) :
    ToldApart others :=
  fun d first e second => told d (within first) e (within second)

theorem withoutRepeats_concat (definitions : List Definition) (d : Definition) :
    withoutRepeats (definitions ++ [d]) =
      if (withoutRepeats definitions).any (·.same d) then withoutRepeats definitions
      else withoutRepeats definitions ++ [d] := by
  simp [withoutRepeats, List.foldl_append]

theorem withoutRepeats_sublist (definitions : List Definition) :
    (withoutRepeats definitions).Sublist definitions := by
  induction definitions using List.reverseRecOn with
  | nil => exact .refl []
  | append_singleton definitions d ih =>
    rw [withoutRepeats_concat]
    split
    · exact ih.trans (List.sublist_append_left definitions [d])
    · exact ih.append (.refl [d])

theorem withoutRepeats_apart (definitions : List Definition) :
    (withoutRepeats definitions).Pairwise fun d e => d.same e = false := by
  induction definitions using List.reverseRecOn with
  | nil => exact .nil
  | append_singleton definitions d ih =>
    rw [withoutRepeats_concat]
    split
    · exact ih
    · rename_i fresh
      refine List.pairwise_append.mpr ⟨ih, List.pairwise_singleton _ d, ?_⟩
      intro e earlier _ last
      rw [List.mem_singleton.mp last]
      exact Bool.eq_false_iff.mpr fun same => fresh (List.any_eq_true.mpr ⟨e, earlier, same⟩)

theorem mem_withoutRepeats_iff (told : ToldApart definitions) :
    d ∈ withoutRepeats definitions ↔ d ∈ definitions := by
  refine ⟨fun kept => (withoutRepeats_sublist definitions).subset kept, fun member => ?_⟩
  induction definitions using List.reverseRecOn with
  | nil => cases member
  | append_singleton definitions last ih =>
    have before := ih (told.subset (List.subset_append_left definitions [last]))
    rw [withoutRepeats_concat]
    rcases List.mem_append.mp member with earlier | here
    · split
      · exact before earlier
      · exact List.mem_append_left _ (before earlier)
    · obtain rfl := List.mem_singleton.mp here
      split
      · -- what it repeats is the same definition, and that one was kept
        rename_i repeated
        obtain ⟨e, kept, same⟩ := List.any_eq_true.mp repeated
        have among : e ∈ definitions := (withoutRepeats_sublist definitions).subset kept
        rwa [← told e (List.mem_append_left _ among) d member same]
      · exact List.mem_append_right _ here

theorem mapM_suggest (definitions : List Definition) (text : Text) :
    definitions.mapM (·.suggest text) =
      if definitions.all fun d => d.labelsWritable text (d.scan text) then
        .ok (definitions.map (·.suggestions text))
      else .error .longCount := by
  induction definitions with
  | nil => rfl
  | cons d definitions ih =>
    rw [List.mapM_cons, ih, suggest, List.all_cons]
    cases d.labelsWritable text (d.scan text) with
    | false => rfl
    | true => cases definitions.all fun d => d.labelsWritable text (d.scan text) <;> rfl

theorem same_of_suggestions {a b : Suggestion} (first : a ∈ d.suggestions text)
    (second : b ∈ e.suggestions text) (same : a.same b = true) : d.same e = true := by
  rw [← (covers_of_mem_suggestions first).1, ← (covers_of_mem_suggestions second).1]
  simp only [Suggestion.same, Bool.and_eq_true] at same
  exact same.1.1.2

theorem flatMap_suggestions_distinct
    (apart : definitions.Pairwise fun d e => d.same e = false) :
    (definitions.flatMap (·.suggestions text)).Pairwise fun a b => a.same b = false := by
  refine List.pairwise_flatMap.mpr ⟨fun d _ => d.suggestions_distinct text, apart.imp ?_⟩
  intro d e different a first b second
  refine Bool.eq_false_iff.mpr fun same => ?_
  rw [same_of_suggestions first second same] at different
  cases different

theorem filter_suggestions (d e : Definition) (text : Text) :
    (e.suggestions text).filter (·.definition.same d) =
      if e.same d then e.suggestions text else [] := by
  have own : ∀ s ∈ e.suggestions text, s.definition.same d = e.same d :=
    fun s member => by rw [(covers_of_mem_suggestions member).1]
  rw [List.filter_congr own]
  cases e.same d <;> simp

theorem filter_flatMap_suggestions (apart : definitions.Pairwise fun d e => d.same e = false)
    (member : d ∈ definitions) :
    (definitions.flatMap (·.suggestions text)).filter (·.definition.same d) =
      d.suggestions text := by
  obtain ⟨front, back, rfl⟩ := List.append_of_mem member
  obtain ⟨-, behind, before⟩ := List.pairwise_append.mp apart
  have nothing : ∀ others : List Definition, (∀ e ∈ others, e.same d = false) →
      (others.flatMap (·.suggestions text)).filter (·.definition.same d) = [] := by
    intro others different
    rw [List.filter_flatMap]
    refine List.flatMap_eq_nil_iff.mpr fun e among => ?_
    rw [filter_suggestions, different e among, if_neg Bool.false_ne_true]
  have early := nothing front fun e among => before e among d (by simp)
  have late := nothing back fun e among => by
    have different := (List.pairwise_cons.mp behind).1 e among
    rwa [same, beq_eq_false_iff_ne, ne_comm, ← beq_eq_false_iff_ne] at different
  rw [List.flatMap_append, List.flatMap_cons, List.filter_append, List.filter_append, early, late,
    filter_suggestions, same_refl, if_pos rfl, List.nil_append, List.append_nil]

end Definition

open Definition

variable {definitions : List Definition} {text : Text}

theorem foldl_addNew_of_known {found offered : List Suggestion} (known : offered ⊆ found) :
    offered.foldl addNew found = found := by
  induction offered with
  | nil => rfl
  | cons s offered ih =>
    obtain ⟨first, rest⟩ := List.cons_subset.mp known
    have again : found.any (·.same s) = true :=
      List.any_eq_true.mpr ⟨s, first, by simp [Suggestion.same, same_refl]⟩
    rw [List.foldl_cons, addNew, if_pos again, ih rest]

theorem foldl_addNew_flatMap (told : ToldApart definitions) (text : Text) :
    (definitions.flatMap (·.suggestions text)).foldl addNew [] =
      (withoutRepeats definitions).flatMap (·.suggestions text) := by
  induction definitions using List.reverseRecOn with
  | nil => rfl
  | append_singleton definitions d ih =>
    have before := ih (told.subset (List.subset_append_left definitions [d]))
    have apart := withoutRepeats_apart (definitions ++ [d])
    rw [List.flatMap_append, List.flatMap_singleton, List.foldl_append, before]
    rw [withoutRepeats_concat] at apart ⊢
    split at apart
    · rename_i repeated
      obtain ⟨e, kept, same⟩ := List.any_eq_true.mp repeated
      have among : e ∈ definitions := (withoutRepeats_sublist definitions).subset kept
      obtain rfl := told e (List.mem_append_left _ among) d (by simp) same
      rw [if_pos repeated]
      exact foldl_addNew_of_known fun s own => List.mem_flatMap.mpr ⟨e, kept, own⟩
    · rename_i fresh
      have distinct := @flatMap_suggestions_distinct _ text apart
      rw [List.flatMap_append, List.flatMap_singleton] at distinct
      rw [if_neg fresh, List.flatMap_append, List.flatMap_singleton]
      exact foldl_addNew_of_distinct distinct

theorem contributing_subset (definitions : List Definition) (text : Text) :
    contributing definitions text ⊆ definitions := by
  unfold contributing
  split
  · exact List.filter_subset_self _
  · exact List.Subset.refl _

theorem suggestionsFor_eq_flatMap (told : ToldApart definitions) (text : Text) :
    suggestionsFor definitions text =
      (withoutRepeats (contributing definitions text)).flatMap (·.suggestions text) := by
  rw [suggestionsFor_eq, foldl_addNew_flatMap (told.subset (contributing_subset definitions text))]

theorem suggest_eq_mapM (told : ToldApart definitions) (text : Text) :
    suggest definitions text =
      Except.map List.flatten
        ((withoutRepeats (contributing definitions text)).mapM (·.suggest text)) := by
  have kept := told.subset (contributing_subset definitions text)
  have written :
      ((contributing definitions text).all fun d => d.labelsWritable text (d.scan text)) =
      (withoutRepeats (contributing definitions text)).all fun d =>
        d.labelsWritable text (d.scan text) := by
    rw [Bool.eq_iff_iff]
    simp only [List.all_eq_true, mem_withoutRepeats_iff kept]
  simp only [suggest, contributors_eq, List.all_map, Function.comp_def]
  rw [written, mapM_suggest, suggestionsFor_eq_flatMap told]
  split
  · rw [Except.map, List.flatten_eq_flatMap, List.flatMap_map]
    rfl
  · rfl

/-- The suggestions for a draft are those of the contributing definitions, one behind the other,
where a definition that is there again is not asked again. They fail exactly where one of these
fails. No two are the same, and each contributing definition keeps all of its own. -/
theorem suggestions_gathered (told : ToldApart definitions) (text : Text) :
    suggest definitions text =
      Except.map List.flatten
        ((withoutRepeats (contributing definitions text)).mapM (·.suggest text)) ∧
    ∀ offered, suggest definitions text = .ok offered →
      offered.Pairwise (fun a b => a.same b = false) ∧
      ∀ d ∈ contributing definitions text,
        d.suggest text = .ok (offered.filter (·.definition.same d)) := by
  refine ⟨suggest_eq_mapM told text, fun offered given => ?_⟩
  have apart := withoutRepeats_apart (contributing definitions text)
  have all := suggest_eq_ok given
  rw [suggestionsFor_eq_flatMap told] at all
  subst all
  refine ⟨flatMap_suggestions_distinct apart, fun d contributes => ?_⟩
  have kept := told.subset (contributing_subset definitions text)
  rw [filter_flatMap_suggestions apart ((mem_withoutRepeats_iff kept).mpr contributes)]
  have written : d.labelsWritable text (d.scan text) = true := by
    unfold suggest at given
    split at given
    · rename_i all
      rw [contributors_eq] at all
      exact List.all_eq_true.mp all (d, d.scan text) (List.mem_map_of_mem contributes)
    · cases given
  rw [Definition.suggest, if_pos written]

def body : Definition where
  tag := 0
  id := "body"
  name := "Body"
  grammar := [.literal ['b', 'o'], .options [['='], ['!', '=']], .number ['n']]
  description := none
  source := none
  factory := none
  grammar_ne_nil := by decide
  grammar_valid := by decide

def bodySize : Definition :=
  { body with
    tag := 1, id := "bodySize", grammar := [.literal ['b', 'o', 's'], .number ['n']],
    grammar_ne_nil := by decide, grammar_valid := by decide }

def bodyTwin : Definition :=
  { body with tag := 2, id := "bodyTwin" }

/-- The word of the body is read to its end, so its size is left out; the twin says the same as the
body and keeps its own. -/
theorem body_gathered :
    ToldApart [body, bodySize, body, bodyTwin] ∧ ∃ offered,
      suggest [body, bodySize, body, bodyTwin] ['b', 'o'] = .ok offered ∧
      offered.map (fun s => (s.definition.tag, s.value)) =
        [(0, ['=']), (0, ['!', '=']), (2, ['=']), (2, ['!', '='])] ∧
      offered.Pairwise (fun a b => a.same b = false) ∧
      bodyTwin.suggest ['b', 'o'] = .ok (offered.filter (·.definition.same bodyTwin)) := by
  have pool : ToldApart [body, bodySize, bodyTwin] := toldApart_of_nodup (by decide)
  have told : ToldApart [body, bodySize, body, bodyTwin] :=
    pool.subset fun d member => by simpa [or_left_comm] using member
  obtain ⟨whole, each⟩ := suggestions_gathered told ['b', 'o']
  have given : suggest [body, bodySize, body, bodyTwin] ['b', 'o'] = .ok _ := whole
  obtain ⟨distinct, own⟩ := each _ given
  exact ⟨told, _, given, rfl, distinct, own bodyTwin (List.mem_of_getLast? rfl)⟩

end SearchBar
