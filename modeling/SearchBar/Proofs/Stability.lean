import SearchBar.Proofs.Allocating

/-! Who gets which item.
A place would rather have an earlier item, an item an earlier place. Handing out the items
leaves no two that suit each other and would both rather have each other, and no other
assignment does so. What an allocation comes to is read off that one. -/
namespace SearchBar.Allocation

variable {α β : Type}

section Specification

variable (suits : α → β → Bool) (places : List α) (items : List β)

def Pairs (i p : Nat) : Prop :=
  ∃ item place, items[i]? = some item ∧ places[p]? = some place ∧ suits place item = true

/-- The two suit each other, the item is left or given to a later place, and the place is free
or has a later item. -/
def Blocks (given : Nat → Option Nat) (i p : Nat) : Prop :=
  Pairs suits places items i p ∧
  (given i = none ∨ ∃ q, given i = some q ∧ p < q) ∧
  ((∀ j, given j ≠ some p) ∨ ∃ j, given j = some p ∧ i < j)

/-- An assignment of places to items, by their numbers, that nobody has a reason to change. -/
structure Stable (given : Nat → Option Nat) : Prop where
  one_to_one : ∀ i j p, given i = some p → given j = some p → i = j
  suited : ∀ i p, given i = some p → Pairs suits places items i p
  unblocked : ∀ i p, ¬ Blocks suits places items given i p

def numbered : List (α × Option (β × Nat)) × List (β × Nat) :=
  allocate (fun place item => suits place item.1) places items.zipIdx

/-- The number of the place that comes to hold the item with a number. -/
def placeOf (i : Nat) : Option Nat :=
  (numbered suits places items).1.findIdx? fun (_, held) => held.map Prod.snd == some i

def heldBy (given : Nat → Option Nat) (p : Nat) : Option β :=
  (items.zipIdx.find? fun (_, i) => given i == some p).map Prod.fst

def leftBy (given : Nat → Option Nat) : List β :=
  (items.zipIdx.filter fun (_, i) => (given i).isNone).map Prod.fst

end Specification

variable {suits : α → β → Bool} {places : List α} {items : List β} {place : α} {item : β}
  {given other : Nat → Option Nat} {i p q : Nat}

theorem Stable.settled (stable : Stable suits places items given)
    (pairs : Pairs suits places items i p) :
    (∃ q, q ≤ p ∧ given i = some q) ∨ ∃ j, j ≤ i ∧ given j = some p := by
  apply Classical.byContradiction
  intro unsettled
  obtain ⟨later, elsewhere⟩ := not_or.mp unsettled
  apply stable.unblocked i p
  refine ⟨pairs, ?_, ?_⟩
  · cases taken : given i with
    | none => exact .inl rfl
    | some q => exact .inr ⟨q, rfl, Nat.lt_of_not_le fun le => later ⟨q, le, taken⟩⟩
  · by_cases held : ∃ j, given j = some p
    · obtain ⟨j, taken⟩ := held
      exact .inr ⟨j, taken, Nat.lt_of_not_le fun le => elsewhere ⟨j, le, taken⟩⟩
    · exact .inl fun j taken => held ⟨j, taken⟩

theorem not_blocks_of_settled
    (one_to_one : ∀ i j p, given i = some p → given j = some p → i = j)
    (settled : (∃ q, q ≤ p ∧ given i = some q) ∨ ∃ j, j ≤ i ∧ given j = some p) :
    ¬ Blocks suits places items given i p := by
  rintro ⟨-, late, wanting⟩
  rcases settled with ⟨q, before, taken⟩ | ⟨j, before, taken⟩
  · rcases late with none | ⟨later, other, after⟩
    · rw [taken] at none
      cases none
    · rw [taken] at other
      cases other
      omega
  · rcases wanting with free | ⟨k, other, after⟩
    · exact free j taken
    · have same := one_to_one j k p taken other
      omega

/-- Where two stable assignments agree on the places before, they agree on the next one. -/
theorem Stable.agree (first : Stable suits places items given)
    (second : Stable suits places items other)
    (earlier : ∀ q < p, ∀ i, given i = some q ↔ other i = some q) (taken : given i = some p) :
    other i = some p := by
  rcases second.settled (first.suited i p taken) with ⟨q, before, holds⟩ | ⟨j, before, holds⟩
  · rcases Nat.lt_or_eq_of_le before with less | rfl
    · have same := (earlier q less i).mpr holds
      rw [taken] at same
      cases same
      omega
    · exact holds
  · -- the first assignment gives the place no item before `i`, so `j` cannot be one
    have same : j = i := by
      rcases first.settled (second.suited j p holds) with ⟨q, le, kept⟩ | ⟨k, le, kept⟩
      · rcases Nat.lt_or_eq_of_le le with less | rfl
        · have here := (earlier q less j).mp kept
          rw [holds] at here
          cases here
          omega
        · exact first.one_to_one j i q kept taken
      · have same := first.one_to_one k i p kept taken
        omega
    exact same ▸ holds

theorem Stable.unique (first : Stable suits places items given)
    (second : Stable suits places items other) : given = other := by
  have same : ∀ p i, given i = some p ↔ other i = some p := by
    intro p
    -- place by place: what the places before have settles what is left to choose
    induction p using Nat.strongRecOn with
    | ind p earlier =>
      intro i
      exact ⟨first.agree second earlier,
        second.agree first fun q before i => (earlier q before i).symm⟩
  funext i
  exact Option.ext fun p => same p i

def Holds (final : List (α × Option β)) (p : Nat) (item : β) : Prop :=
  ∃ place, final[p]? = some (place, some item)

@[simp] theorem holds_cons_zero {held : Option β} {final : List (α × Option β)} :
    Holds ((place, held) :: final) 0 item ↔ held = some item := by
  simp [Holds]

@[simp] theorem holds_cons_succ {entry : α × Option β} {final : List (α × Option β)} :
    Holds (entry :: final) (p + 1) item ↔ Holds final p item := by
  simp [Holds]

theorem pairs_of_holds (holds : Holds (allocate suits places items).1 p item) :
    item ∈ items ∧ ∃ place, places[p]? = some place ∧ suits place item = true := by
  obtain ⟨place, there⟩ := holds
  obtain ⟨known, fits⟩ := suits_of_mem_allocate (List.mem_of_getElem? there)
  refine ⟨known, place, ?_, fits⟩
  rw [← @getElem?_allocate_places _ _ suits places items, there, Option.map_some]

theorem holds_unique (distinct : items.Nodup) (one : Holds (allocate suits places items).1 p item)
    (two : Holds (allocate suits places items).1 q item) : p = q := by
  induction places generalizing items p q with
  | nil => simp [Holds] at one
  | cons first places ih =>
    rw [allocate_cons] at one two
    cases p with
    | zero =>
      cases q with
      | zero => rfl
      | succ q =>
        rw [holds_cons_zero] at one
        rw [holds_cons_succ] at two
        exact False.elim (not_mem_eraseP distinct one (pairs_of_holds two).1)
    | succ p =>
      cases q with
      | zero =>
        rw [holds_cons_succ] at one
        rw [holds_cons_zero] at two
        exact False.elim (not_mem_eraseP distinct two (pairs_of_holds one).1)
      | succ q =>
        rw [holds_cons_succ] at one two
        rw [ih (distinct.eraseP _) one two]

theorem holds_or_earlier {number : β → Nat}
    (ordered : items.Pairwise fun a b => number a < number b) (member : item ∈ items)
    (there : places[p]? = some place) (fits : suits place item = true) :
    (∃ q, q ≤ p ∧ Holds (allocate suits places items).1 q item) ∨
      ∃ early, Holds (allocate suits places items).1 p early ∧ number early ≤ number item := by
  -- the places choose in turn, so the item is still there or went to a place before this one
  induction places generalizing items p with
  | nil => cases there
  | cons first places ih =>
    rw [allocate_cons]
    cases p with
    | zero =>
      cases there
      obtain ⟨early, found, least⟩ := find?_least ordered member fits
      exact .inr ⟨early, holds_cons_zero.mpr found, least⟩
    | succ p =>
      rcases taken_or_remains (suits first) member with taken | remaining
      · exact .inl ⟨0, Nat.zero_le _, holds_cons_zero.mpr taken⟩
      · rcases ih (ordered.sublist List.eraseP_sublist) remaining there with
          ⟨q, before, holds⟩ | ⟨early, holds, least⟩
        · exact .inl ⟨q + 1, Nat.succ_le_succ before, holds_cons_succ.mpr holds⟩
        · exact .inr ⟨early, holds_cons_succ.mpr holds, least⟩

def isTaken (number : β → Nat) (final : List (α × Option β)) (n : Nat) : Bool :=
  final.any fun (_, held) => held.map number == some n

theorem allocate_left {number : β → Nat}
    (ordered : items.Pairwise fun a b => number a < number b) :
    (allocate suits places items).2 = items.filter fun item =>
      !isTaken number (allocate suits places items).1 (number item) := by
  induction places generalizing items with
  | nil =>
    symm
    simp [isTaken]
  | cons place places ih =>
    rw [allocate_cons]
    rcases first_cases (suits place) items with
      ⟨none, left, -⟩ | ⟨front, x, back, rfl, -, -, found, left⟩
    · rw [none, left, ih ordered]
      simp [isTaken]
    · have rest : (front ++ back).Pairwise fun a b => number a < number b :=
        ordered.sublist ((List.sublist_cons_self x back).append_left front)
      obtain ⟨-, behind, before⟩ := List.pairwise_append.mp ordered
      have apart : ∀ item ∈ front ++ back, number x ≠ number item := by
        intro item member
        rcases List.mem_append.mp member with early | late
        · exact Nat.ne_of_gt (before item early x (by simp))
        · exact Nat.ne_of_lt ((List.pairwise_cons.mp behind).1 item late)
      rw [found, left, List.filter_append, List.filter_cons_of_neg (by simp [isTaken]),
        ← List.filter_append, ih rest]
      apply List.filter_congr
      intro item member
      simp [isTaken, apart item member]

section Numbered

theorem zipIdx_ordered (items : List β) : items.zipIdx.Pairwise fun a b => a.2 < b.2 := by
  have numbers : (List.range' 0 items.length).Pairwise (· < ·) := List.pairwise_lt_range'
  rwa [← List.zipIdx_map_snd 0 items, List.pairwise_map] at numbers

theorem zipIdx_nodup (items : List β) : items.zipIdx.Nodup :=
  (zipIdx_ordered items).imp fun less same => Nat.ne_of_lt less (congrArg Prod.snd same)

theorem getElem?_of_holds (holds : Holds (numbered suits places items).1 p (item, i)) :
    items[i]? = some item :=
  List.mem_zipIdx_iff_getElem?.mp (pairs_of_holds holds).1

theorem placeOf_eq_some_iff :
    placeOf suits places items i = some p ↔
      ∃ item, Holds (numbered suits places items).1 p (item, i) := by
  have holds_of : ∀ q (bound : q < (numbered suits places items).1.length),
      ((numbered suits places items).1[q].2.map Prod.snd == some i) = true →
        ∃ item, Holds (numbered suits places items).1 q (item, i) := by
    intro q bound has
    obtain ⟨⟨item, j⟩, held, rfl⟩ := Option.map_eq_some_iff.mp (beq_iff_eq.mp has)
    exact ⟨item, _, (List.getElem?_eq_getElem bound).trans (congrArg some (Prod.ext rfl held))⟩
  unfold placeOf
  rw [List.findIdx?_eq_some_iff_getElem]
  constructor
  · rintro ⟨bound, has, -⟩
    exact holds_of p bound has
  · rintro ⟨item, place, there⟩
    obtain ⟨bound, entry⟩ := List.getElem?_eq_some_iff.mp there
    refine ⟨bound, by simp [entry], ?_⟩
    intro q less has
    obtain ⟨twin, holds⟩ := holds_of q (Nat.lt_trans less bound) has
    have equal := (getElem?_of_holds holds).symm.trans (getElem?_of_holds ⟨place, there⟩)
    cases equal
    exact Nat.ne_of_lt less (holds_unique (zipIdx_nodup items) holds ⟨place, there⟩)

theorem placeOf_one_to_one {j : Nat} (first : placeOf suits places items i = some p)
    (second : placeOf suits places items j = some p) : i = j := by
  obtain ⟨a, place, one⟩ := placeOf_eq_some_iff.mp first
  obtain ⟨b, same, two⟩ := placeOf_eq_some_iff.mp second
  rw [one] at two
  cases two
  rfl

theorem placeOf_stable : Stable suits places items (placeOf suits places items) where
  one_to_one _ _ _ := placeOf_one_to_one
  suited i p taken := by
    obtain ⟨item, holds⟩ := placeOf_eq_some_iff.mp taken
    obtain ⟨-, place, there, fits⟩ := pairs_of_holds holds
    exact ⟨item, place, getElem?_of_holds holds, there, fits⟩
  unblocked i p := by
    intro blocks
    obtain ⟨item, place, known, there, fits⟩ := blocks.1
    apply not_blocks_of_settled (fun _ _ _ => placeOf_one_to_one) ?_ blocks
    have member : (item, i) ∈ items.zipIdx := List.mem_zipIdx_iff_getElem?.mpr known
    have settled : (∃ q, q ≤ p ∧ Holds (numbered suits places items).1 q (item, i)) ∨
        ∃ early, Holds (numbered suits places items).1 p early ∧ early.2 ≤ i :=
      holds_or_earlier (zipIdx_ordered items) member there fits
    rcases settled with ⟨q, before, holds⟩ | ⟨⟨early, j⟩, holds, before⟩
    · exact .inl ⟨q, before, placeOf_eq_some_iff.mpr ⟨item, holds⟩⟩
    · exact .inr ⟨j, before, placeOf_eq_some_iff.mpr ⟨early, holds⟩⟩

theorem stable_iff : Stable suits places items given ↔ given = placeOf suits places items :=
  ⟨fun stable => stable.unique placeOf_stable, fun same => same ▸ placeOf_stable⟩

theorem heldBy_eq_some_iff
    (one_to_one : ∀ i j p, given i = some p → given j = some p → i = j) :
    heldBy items given p = some item ↔ ∃ i, items[i]? = some item ∧ given i = some p := by
  constructor
  · intro held
    obtain ⟨⟨_, i⟩, found, rfl⟩ := Option.map_eq_some_iff.mp held
    exact ⟨i, List.mem_zipIdx_iff_getElem?.mp (List.mem_of_find?_eq_some found),
      by simpa using List.find?_some found⟩
  · rintro ⟨i, known, taken⟩
    have member : (item, i) ∈ items.zipIdx := List.mem_zipIdx_iff_getElem?.mpr known
    cases found : items.zipIdx.find? fun (_, i) => given i == some p with
    | none =>
      have missed := List.find?_eq_none.mp found (item, i) member
      simp [taken] at missed
    | some entry =>
      obtain ⟨twin, j⟩ := entry
      have also := List.mem_zipIdx_iff_getElem?.mp (List.mem_of_find?_eq_some found)
      have here : given j = some p := by simpa using List.find?_some found
      have same := one_to_one i j p taken here
      subst same
      rw [known] at also
      cases also
      simp [heldBy, found]

theorem numbered_forget (places : List α) (items : List β) :
    allocate suits places items =
      ((numbered suits places items).1.map (Prod.map id (Option.map Prod.fst)),
        (numbered suits places items).2.map Prod.fst) := by
  have forgotten := @allocate_map _ _ _ suits Prod.fst places items.zipIdx
  rwa [List.zipIdx_map_fst] at forgotten

theorem heldBy_placeOf {held : Option (β × Nat)}
    (there : (numbered suits places items).1[p]? = some (place, held)) :
    heldBy items (placeOf suits places items) p = held.map Prod.fst := by
  apply Option.ext
  intro item
  rw [heldBy_eq_some_iff fun _ _ _ => placeOf_one_to_one, Option.map_eq_some_iff]
  constructor
  · rintro ⟨i, known, taken⟩
    obtain ⟨twin, place', holds⟩ := placeOf_eq_some_iff.mp taken
    have same := (getElem?_of_holds ⟨place', holds⟩).symm.trans known
    rw [there] at holds
    cases holds
    exact ⟨(twin, i), rfl, Option.some.inj same⟩
  · rintro ⟨⟨twin, i⟩, rfl, rfl⟩
    exact ⟨i, getElem?_of_holds ⟨place, there⟩, placeOf_eq_some_iff.mpr ⟨twin, place, there⟩⟩

theorem isNone_placeOf (i : Nat) : (placeOf suits places items i).isNone =
    !isTaken Prod.snd (numbered suits places items).1 i := by
  rw [placeOf, isTaken, ← List.findIdx?_isSome, Option.not_isSome]

theorem allocate_eq_of_placeOf (places : List α) (items : List β) :
    allocate suits places items =
      (places.zipIdx.map fun (place, p) => (place, heldBy items (placeOf suits places items) p),
        leftBy items (placeOf suits places items)) := by
  rw [numbered_forget, Prod.mk.injEq]
  constructor
  · apply List.ext_getElem?
    intro p
    have placed : (numbered suits places items).1[p]?.map Prod.fst = places[p]? :=
      getElem?_allocate_places places items.zipIdx p
    rw [List.getElem?_map, List.getElem?_map, List.getElem?_zipIdx, ← placed]
    cases there : (numbered suits places items).1[p]? with
    | none => rfl
    | some entry => simp [heldBy_placeOf there, Prod.map]
  · have left : (numbered suits places items).2 = items.zipIdx.filter fun item =>
        !isTaken Prod.snd (numbered suits places items).1 item.2 :=
      allocate_left (zipIdx_ordered items)
    rw [left]
    simp only [leftBy, isNone_placeOf]

end Numbered

end SearchBar.Allocation
