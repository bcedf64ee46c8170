import SearchBar.Definition.Basic
import SearchBar.Sequence

namespace SearchBar

/-- The place of each id in a list of so many entries, the one noted last in front. -/
abbrev Places (count : Nat) := List (String × Fin count)

structure Catalog where
  definitions : List Definition
  places : Places definitions.length
  /-- Under an id stands the place of the entry that has it, and every entry can be found so. -/
  lookup_iff : ∀ id i, places.lookup id = some i ↔ (definitions.get i).id = id

inductive CatalogFault where
  /-- An id comes again: the sources of the later entry and of the one that holds it. -/
  | duplicate (id : String) (source earlier : Option String)
  | stranger (id : String)
  deriving DecidableEq, Repr

def sourceName (source : Option String) : String :=
  match source with
  | none => "unknown"
  | some name => if name.isEmpty then "unknown" else name

def CatalogFault.message : CatalogFault → String
  | duplicate id source earlier =>
    "Duplicate filter id '" ++ id ++ "' (from " ++ sourceName source ++
      ", already defined by " ++ sourceName earlier ++ ")"
  | stranger id => "Filter '" ++ id ++ "' is not part of this catalog"

namespace Catalog

section Entering

variable {definitions : List Definition} {places made : Places definitions.length}
  {seen rest : List (Fin definitions.length)} {i : Fin definitions.length}

/-- Notes places under the ids of their entries, up to the first whose id is noted already. -/
def enter (definitions : List Definition) (places : Places definitions.length) :
    List (Fin definitions.length) → Except CatalogFault (Places definitions.length)
  | [] => .ok places
  | i :: rest =>
    let d := definitions.get i
    match places.lookup d.id with
    | some first => .error (.duplicate d.id d.source (definitions.get first).source)
    | none => enter definitions ((d.id, i) :: places) rest

/-- The places that have been seen are noted, and no others. -/
def Noted (definitions : List Definition) (places : Places definitions.length)
    (seen : List (Fin definitions.length)) : Prop :=
  ∀ id i, places.lookup id = some i ↔ i ∈ seen ∧ (definitions.get i).id = id

theorem Noted.nil : Noted definitions [] [] := by
  simp [Noted]

theorem Noted.concat (noted : Noted definitions places seen)
    (fresh : places.lookup (definitions.get i).id = none) :
    Noted definitions (((definitions.get i).id, i) :: places) (seen ++ [i]) := by
  intro id j
  rw [List.mem_append, List.mem_singleton]
  by_cases same : id = (definitions.get i).id
  · subst same
    rw [List.lookup_cons_self, Option.some_inj]
    constructor
    · rintro rfl
      exact ⟨.inr rfl, rfl⟩
    · rintro ⟨old | rfl, held⟩
      · cases fresh.symm.trans ((noted _ j).mpr ⟨old, held⟩)
      · rfl
  · have other : (id == (definitions.get i).id) = false := beq_false_of_ne same
    simp only [List.lookup_cons, other, noted id j]
    constructor
    · rintro ⟨old, held⟩
      exact ⟨.inl old, held⟩
    · rintro ⟨old | rfl, held⟩
      · exact ⟨old, held⟩
      · exact absurd held.symm same

theorem Noted.of_enter (noted : Noted definitions places seen)
    (entered : enter definitions places rest = .ok made) :
    Noted definitions made (seen ++ rest) := by
  induction rest generalizing places seen with
  | nil =>
    rw [List.append_nil, ← Except.ok.inj entered]
    exact noted
  | cons i rest ih =>
    rw [enter] at entered
    split at entered
    · cases entered
    · next fresh =>
      rw [List.append_cons]
      exact ih (noted.concat fresh) entered

theorem lookup_iff_of_enter
    (entered : enter definitions [] (List.finRange definitions.length) = .ok places)
    (id : String) (i : Fin definitions.length) :
    places.lookup id = some i ↔ (definitions.get i).id = id := by
  rw [Noted.nil.of_enter entered id i, List.nil_append]
  exact and_iff_right (List.mem_finRange i)

end Entering

def ofList (definitions : List Definition) : Except CatalogFault Catalog :=
  match entered : enter definitions [] (List.finRange definitions.length) with
  | .error fault => .error fault
  | .ok places => .ok ⟨definitions, places, lookup_iff_of_enter entered⟩

def ofSources (sources : List (List Definition)) : Except CatalogFault Catalog :=
  ofList sources.flatten

def size (c : Catalog) : Nat :=
  c.definitions.length

def ids (c : Catalog) : List String :=
  c.definitions.map (·.id)

def get? (c : Catalog) (id : String) : Option Definition :=
  (c.places.lookup id).map fun i => c.definitions.get i

def indexOf (c : Catalog) (d : Definition) : Except CatalogFault Nat :=
  match c.places.lookup d.id with
  | none => .error (.stranger d.id)
  | some i => if (c.definitions.get i).same d then .ok i else .error (.stranger d.id)

def contains (c : Catalog) (d : Definition) : Bool :=
  c.definitions.any (·.same d)

def text (c : Catalog) : String :=
  "FilterCatalog([" ++ ", ".intercalate c.ids ++ "])"

end Catalog
end SearchBar
