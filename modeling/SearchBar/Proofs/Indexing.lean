import SearchBar.Proofs.Layering
import Mathlib.Data.List.Nodup

namespace SearchBar.Catalog

section Entering

variable {definitions : List Definition} {places : Places definitions.length}
  {seen rest : List (Fin definitions.length)} {fault : CatalogFault} {d holder : Definition}

theorem Noted.nodup_ids (noted : Noted definitions places seen) (once : seen.Nodup) :
    ((seen.map definitions.get).map Definition.id).Nodup := by
  rw [List.map_map]
  refine once.map_on fun i first j second same => ?_
  have found := (noted _ i).mpr ⟨first, rfl⟩
  have again := (noted _ j).mpr ⟨second, same.symm⟩
  exact Option.some.inj (found.symm.trans again)

theorem Noted.of_enter_error (noted : Noted definitions places seen)
    (failed : enter definitions places rest = .error fault) :
    ∃ front i back first made, rest = front ++ i :: back ∧
      Noted definitions made (seen ++ front) ∧
      first ∈ seen ++ front ∧ (definitions.get first).id = (definitions.get i).id ∧
      fault = .duplicate (definitions.get i).id (definitions.get i).source
        (definitions.get first).source := by
  induction rest generalizing places seen with
  | nil => cases failed
  | cons i rest ih =>
    rw [enter] at failed
    split at failed
    · next first found =>
      obtain ⟨member, same⟩ := (noted _ first).mp found
      refine ⟨[], i, rest, first, places, rfl, ?_, ?_, same, (Except.error.inj failed).symm⟩
      · rwa [List.append_nil]
      · rwa [List.append_nil]
    · next fresh =>
      obtain ⟨front, j, back, first, made, rfl, behind⟩ := ih (noted.concat fresh) failed
      rw [← List.append_cons] at behind
      exact ⟨i :: front, j, back, first, made, rfl, behind⟩

theorem ofList_cases (definitions : List Definition) :
    (definitions.map Definition.id).Nodup ∧
        (∃ c, ofList definitions = .ok c ∧ c.definitions = definitions) ∨
      ∃ front d back holder, definitions = front ++ d :: back ∧
        (front.map Definition.id).Nodup ∧ holder ∈ front ∧ holder.id = d.id ∧
        ofList definitions = .error (.duplicate d.id d.source holder.source) := by
  have every := List.map_get_finRange definitions
  have once := List.nodup_finRange definitions.length
  unfold ofList
  split
  · next fault entered =>
    obtain ⟨front, i, back, first, made, split, noted, member, same, rfl⟩ :=
      Noted.nil.of_enter_error entered
    rw [split] at every once
    refine .inr ⟨front.map definitions.get, definitions.get i, back.map definitions.get,
      definitions.get first, ?_, ?_, List.mem_map_of_mem member, same, rfl⟩
    · simpa using every.symm
    · exact noted.nodup_ids (once.sublist (List.sublist_append_left _ _))
  · next places entered =>
    have ids := (Noted.nil.of_enter entered).nodup_ids once
    rw [List.nil_append, every] at ids
    exact .inl ⟨ids, _, rfl, rfl⟩

theorem not_nodup_of_repeat {front back : List Definition} (member : holder ∈ front)
    (same : holder.id = d.id) : ¬ ((front ++ d :: back).map Definition.id).Nodup := by
  intro nodup
  rw [List.map_append, List.map_cons, List.nodup_append] at nodup
  exact nodup.2.2 _ (List.mem_map_of_mem member) _ List.mem_cons_self same

end Entering

variable {c : Catalog} {d e : Definition} {i : Nat}

theorem lookup_of_mem (member : d ∈ c.definitions) :
    ∃ place, c.definitions.get place = d ∧ c.places.lookup d.id = some place := by
  obtain ⟨place, rfl⟩ := List.get_of_mem member
  exact ⟨place, rfl, (c.lookup_iff _ _).mpr rfl⟩

theorem eq_of_id_eq (first : d ∈ c.definitions) (second : e ∈ c.definitions) (same : d.id = e.id) :
    d = e := by
  obtain ⟨place, rfl, found⟩ := lookup_of_mem first
  obtain ⟨other, rfl, again⟩ := lookup_of_mem second
  rw [same, again] at found
  rw [Option.some.inj found]

theorem indexOf_cases (c : Catalog) (d : Definition) :
    (∃ i e, c.indexOf d = .ok i ∧ c.definitions[i]? = some e ∧ e.id = d.id ∧ e.same d = true) ∨
      c.indexOf d = .error (.stranger d.id) ∧
        ∀ e ∈ c.definitions, e.id = d.id → e.same d = false := by
  unfold indexOf
  cases found : c.places.lookup d.id with
  | none =>
    refine .inr ⟨rfl, fun e member same => ?_⟩
    obtain ⟨place, -, noted⟩ := lookup_of_mem member
    rw [same, found] at noted
    cases noted
  | some place =>
    have named := (c.lookup_iff _ _).mp found
    cases same : (c.definitions.get place).same d with
    | true =>
      exact .inl ⟨place, _, if_pos same, List.getElem?_eq_getElem place.isLt, named, same⟩
    | false =>
      refine .inr ⟨if_neg (Bool.eq_false_iff.mp same), fun e member own => ?_⟩
      rw [eq_of_id_eq member (List.getElem_mem place.isLt) (own.trans named.symm)]
      exact same

theorem indexOf_of_getElem? (held : c.definitions[i]? = some d) : c.indexOf d = .ok i := by
  obtain ⟨within, rfl⟩ := List.getElem?_eq_some_iff.mp held
  have found : c.places.lookup c.definitions[i].id = some ⟨i, within⟩ :=
    (c.lookup_iff _ _).mpr rfl
  rw [indexOf, found]
  exact if_pos (beq_self_eq_true _)

/-- Where a tag stands for one definition, a handle is given to exactly the definition at its
place. -/
theorem indexOf_eq_ok_iff (told : ∀ e ∈ c.definitions, e.same d = true → e = d) :
    c.indexOf d = .ok i ↔ c.definitions[i]? = some d := by
  refine ⟨fun given => ?_, indexOf_of_getElem?⟩
  rcases c.indexOf_cases d with ⟨j, e, other, held, -, same⟩ | ⟨failed, -⟩
  · obtain rfl := Except.ok.inj (other.symm.trans given)
    rw [held, told e (List.mem_of_getElem? held) same]
  · cases failed.symm.trans given

theorem indexOf_eq_stranger (unknown : ∀ e ∈ c.definitions, e.same d = false) :
    c.indexOf d = .error (.stranger d.id) := by
  rcases c.indexOf_cases d with ⟨i, e, -, held, -, same⟩ | ⟨failed, -⟩
  · cases same.symm.trans (unknown e (List.mem_of_getElem? held))
  · exact failed

theorem get?_of_mem (member : d ∈ c.definitions) : c.get? d.id = some d := by
  obtain ⟨place, rfl, found⟩ := lookup_of_mem member
  rw [get?, found, Option.map_some]

theorem get?_eq_none_iff {id : String} : c.get? id = none ↔ id ∉ c.ids := by
  rw [get?, Option.map_eq_none_iff, Option.eq_none_iff_forall_ne_some, ids]
  constructor
  · intro missing listed
    obtain ⟨d, member, rfl⟩ := List.mem_map.mp listed
    obtain ⟨place, -, found⟩ := lookup_of_mem member
    exact missing place found
  · rintro absent place found
    rw [← (c.lookup_iff _ _).mp found] at absent
    exact absent (List.mem_map_of_mem (List.getElem_mem place.isLt))

/-- Sources make a catalog of all their definitions unless an id is there twice, and then the
fault names the first that comes again. In a catalog a place, the id and the definition itself
stand for each other; nobody else has a handle, whatever it looks like. -/
theorem handles_exact (sources : List (List Definition)) :
    ((∃ fault, ofSources sources = .error fault) ↔
      ¬ (sources.flatten.map Definition.id).Nodup) ∧
    (∀ fault, ofSources sources = .error fault → ∃ front d back holder,
      sources.flatten = front ++ d :: back ∧ (front.map Definition.id).Nodup ∧
      holder ∈ front ∧ holder.id = d.id ∧
      fault = .duplicate d.id d.source holder.source) ∧
    ∀ c, ofSources sources = .ok c →
      c.definitions = sources.flatten ∧
      (∀ i d, c.definitions[i]? = some d → c.indexOf d = .ok i ∧ c.get? d.id = some d) ∧
      (∀ id, c.get? id = none ↔ id ∉ c.ids) ∧
      (∀ d, (∀ e ∈ c.definitions, e.same d = true → e = d) →
        (∀ i, c.indexOf d = .ok i ↔ c.definitions[i]? = some d) ∧
        (d ∉ c.definitions → c.indexOf d = .error (.stranger d.id))) ∧
      ∀ copy, (∀ e ∈ c.definitions, e.same copy = false) →
        c.indexOf copy = .error (.stranger copy.id) := by
  refine ⟨?_, ?_, fun c made => ⟨?_, ?_, fun id => get?_eq_none_iff, ?_, ?_⟩⟩
  · rcases ofList_cases sources.flatten with
      ⟨distinct, c, made, -⟩ | ⟨front, d, back, holder, split, -, member, same, failed⟩
    · rw [ofSources, made]
      exact iff_of_false nofun (not_not_intro distinct)
    · rw [ofSources, failed, split]
      exact iff_of_true ⟨_, rfl⟩ (not_nodup_of_repeat member same)
  · intro fault given
    rcases ofList_cases sources.flatten with
      ⟨-, c, made, -⟩ | ⟨front, d, back, holder, split, distinct, member, same, failed⟩
    · cases made.symm.trans given
    · exact ⟨front, d, back, holder, split, distinct, member, same,
        Except.error.inj (given.symm.trans failed)⟩
  · exact definitions_of_ofSources made
  · exact fun i d held => ⟨indexOf_of_getElem? held, get?_of_mem (List.mem_of_getElem? held)⟩
  · intro d told
    refine ⟨fun i => indexOf_eq_ok_iff told, fun absent => indexOf_eq_stranger fun e member => ?_⟩
    refine Bool.eq_false_iff.mpr fun same => absent ?_
    exact told e member same ▸ member
  · exact fun copy unknown => indexOf_eq_stranger unknown

/-- Another definition that says the same as the second one of a catalog has no handle, though the
id is known, and cannot come to it. -/
theorem column_held : ∃ c, ofSources [[line], [], [column]] = .ok c ∧
    c.indexOf column = .ok 1 ∧ c.get? "column" = some column ∧ c.get? "page" = none ∧
    (∀ i, c.indexOf column = .ok i ↔ c.definitions[i]? = some column) ∧
    c.indexOf { column with tag := 7 } = .error (.stranger "column") ∧
    ∃ later earlier : Definition, earlier.id = later.id ∧
      ofSources [[line], [column], [{ column with tag := 7 }]] =
        .error (.duplicate later.id later.source earlier.source) := by
  obtain ⟨refused, -, catalogs⟩ := handles_exact [[line], [], [column]]
  obtain ⟨twice, named, -⟩ := handles_exact [[line], [column], [{ column with tag := 7 }]]
  cases made : ofSources [[line], [], [column]] with
  | error fault => exact absurd (by decide) (refused.mp ⟨fault, made⟩)
  | ok c =>
    obtain ⟨held, handles, absent, own, strangers⟩ := catalogs c made
    have second : c.definitions[1]? = some column := by rw [held]; rfl
    have either : ∀ e ∈ c.definitions, e = line ∨ e = column := by simp [held]
    refine ⟨c, rfl, (handles 1 column second).1, (handles 1 column second).2, ?_, ?_, ?_, ?_⟩
    · rw [absent, ids, held]
      decide
    · refine (own column fun e member same => ?_).1
      obtain rfl | rfl := either e member
      · cases same
      · rfl
    · refine strangers _ fun e member => ?_
      obtain rfl | rfl := either e member
      · rfl
      · rfl
    · obtain ⟨fault, failed⟩ := twice.mpr (by decide)
      obtain ⟨_, later, _, earlier, -, -, -, same, shown⟩ := named fault failed
      exact ⟨later, earlier, same, shown ▸ failed⟩

end SearchBar.Catalog
