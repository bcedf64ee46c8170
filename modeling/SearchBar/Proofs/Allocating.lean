import SearchBar.Allocation

/-! Handing out, seen from the places.
Items are offered one by one, but it comes to the same if the places choose one after the
other: each takes the first item left that suits it. So places further on only see what
those before them leave. -/
namespace SearchBar.Allocation

variable {α β γ : Type} {suits : α → β → Bool} {place : α} {places : List α} {items : List β}

theorem first_cases (wanted : β → Bool) (items : List β) :
    (items.find? wanted = none ∧ items.eraseP wanted = items ∧
      ∀ item ∈ items, wanted item = false) ∨
    ∃ front first back, items = front ++ first :: back ∧ wanted first = true ∧
      (∀ item ∈ front, wanted item = false) ∧
      items.find? wanted = some first ∧ items.eraseP wanted = front ++ back := by
  cases found : items.find? wanted with
  | none =>
    have unwanted : ∀ item ∈ items, wanted item = false := by simpa using found
    exact .inl ⟨rfl, List.eraseP_of_forall_not (by simpa using unwanted), unwanted⟩
  | some first =>
    obtain ⟨fits, front, back, rfl, before⟩ := List.find?_eq_some_iff_append.mp found
    have unwanted : ∀ item ∈ front, wanted item = false := by simpa using before
    refine .inr ⟨front, first, back, rfl, fits, unwanted, rfl, ?_⟩
    rw [List.eraseP_append_right _ (by simpa using unwanted), List.eraseP_cons_of_pos fits]

theorem taken_or_remains (wanted : β → Bool) {item : β} (member : item ∈ items) :
    items.find? wanted = some item ∨ item ∈ items.eraseP wanted := by
  rcases first_cases wanted items with ⟨-, same, -⟩ | ⟨front, first, back, rfl, -, -, found, rest⟩
  · exact .inr (by rwa [same])
  · rw [found, rest]
    rcases List.mem_append.mp member with early | late
    · exact .inr (List.mem_append_left _ early)
    · rcases List.mem_cons.mp late with rfl | late
      · exact .inl rfl
      · exact .inr (List.mem_append_right _ late)

theorem not_mem_eraseP (distinct : items.Nodup) {wanted : β → Bool} {item : β}
    (taken : items.find? wanted = some item) : item ∉ items.eraseP wanted := by
  rcases first_cases wanted items with ⟨none, -⟩ | ⟨front, first, back, rfl, -, -, found, rest⟩
  · rw [none] at taken
    cases taken
  · rw [found] at taken
    cases taken
    rw [rest]
    exact (List.nodup_cons.mp (List.perm_middle.nodup_iff.mp distinct)).1

theorem find?_least {number : β → Nat}
    (ordered : items.Pairwise fun a b => number a < number b) {wanted : β → Bool} {item : β}
    (member : item ∈ items) (fits : wanted item = true) :
    ∃ early, items.find? wanted = some early ∧ number early ≤ number item := by
  rcases first_cases wanted items with
    ⟨-, -, unwanted⟩ | ⟨front, first, back, rfl, -, unwanted, found, -⟩
  · rw [unwanted item member] at fits
    cases fits
  · refine ⟨first, found, ?_⟩
    obtain ⟨-, behind, -⟩ := List.pairwise_append.mp ordered
    rcases List.mem_append.mp member with early | late
    · rw [unwanted item early] at fits
      cases fits
    · rcases List.mem_cons.mp late with rfl | late
      · exact Nat.le_refl _
      · exact Nat.le_of_lt ((List.pairwise_cons.mp behind).1 item late)

theorem run_cons_held (held : β) (others : List (α × Option β)) (items : List β) :
    run suits ((place, some held) :: others) items =
      ((place, some held) :: (run suits others items).1, (run suits others items).2) := by
  induction items generalizing others with
  | nil => rfl
  | cons item items ih =>
    cases given : give? suits item others with
    | none => simp [run, give?, given, ih]
    | some taken => simp [run, give?, given, ih]

theorem run_cons_free (others : List (α × Option β)) (items : List β) :
    run suits ((place, none) :: others) items =
      ((place, items.find? (suits place)) ::
          (run suits others (items.eraseP (suits place))).1,
        (run suits others (items.eraseP (suits place))).2) := by
  induction items generalizing others with
  | nil => rfl
  | cons item items ih =>
    cases fits : suits place item with
    | true => simp [run, give?, fits, run_cons_held]
    | false =>
      cases given : give? suits item others with
      | none => simp [run, give?, fits, given, ih]
      | some taken => simp [run, give?, fits, given, ih]

@[simp] theorem allocate_nil (items : List β) :
    allocate suits ([] : List α) items = ([], items) := by
  unfold allocate
  induction items with
  | nil => rfl
  | cons item items ih =>
    rw [List.map_nil] at ih ⊢
    simp [run, give?, ih]

theorem allocate_cons (place : α) (places : List α) (items : List β) :
    allocate suits (place :: places) items =
      ((place, items.find? (suits place)) ::
          (allocate suits places (items.eraseP (suits place))).1,
        (allocate suits places (items.eraseP (suits place))).2) :=
  run_cons_free _ _

theorem allocate_append (first later : List α) (items : List β) :
    allocate suits (first ++ later) items =
      ((allocate suits first items).1 ++
          (allocate suits later (allocate suits first items).2).1,
        (allocate suits later (allocate suits first items).2).2) := by
  induction first generalizing items with
  | nil => simp
  | cons place first ih => simp only [List.cons_append, allocate_cons, ih]

theorem allocate_places (places : List α) (items : List β) :
    (allocate suits places items).1.map Prod.fst = places := by
  induction places generalizing items with
  | nil => simp
  | cons place places ih => simp [allocate_cons, ih]

theorem getElem?_allocate_places (places : List α) (items : List β) (p : Nat) :
    (allocate suits places items).1[p]?.map Prod.fst = places[p]? := by
  rw [← List.getElem?_map, allocate_places]

theorem suits_of_mem_allocate {item : β}
    (member : (place, some item) ∈ (allocate suits places items).1) :
    item ∈ items ∧ suits place item = true := by
  induction places generalizing items with
  | nil =>
    rw [allocate_nil] at member
    cases member
  | cons first places ih =>
    rw [allocate_cons] at member
    rcases List.mem_cons.mp member with same | among
    · obtain ⟨rfl, found⟩ := Prod.mk.inj same
      exact ⟨List.mem_of_find?_eq_some found.symm, List.find?_some found.symm⟩
    · obtain ⟨remaining, fits⟩ := ih among
      exact ⟨List.mem_of_mem_eraseP remaining, fits⟩

theorem allocate_map (f : γ → β) (places : List α) (items : List γ) :
    allocate suits places (items.map f) =
      ((allocate (fun place item => suits place (f item)) places items).1.map
          (Prod.map id (Option.map f)),
        (allocate (fun place item => suits place (f item)) places items).2.map f) := by
  induction places generalizing items with
  | nil => simp
  | cons place places ih =>
    simp [allocate_cons, List.find?_map, List.eraseP_map, ih, Function.comp_def]

theorem allocate_perm (places : List α) (items : List β) :
    ((allocate suits places items).1.filterMap Prod.snd ++
      (allocate suits places items).2).Perm items := by
  induction places generalizing items with
  | nil => simp
  | cons place places ih =>
    rw [allocate_cons]
    rcases first_cases (suits place) items with
      ⟨none, rest, -⟩ | ⟨front, first, back, rfl, -, -, found, rest⟩
    · simpa [none, rest] using ih items
    · rw [found, rest]
      exact ((ih (front ++ back)).cons first).trans List.perm_middle.symm

/-- Handing out again what was handed out, in the order of the places, and then what was left,
gives every place its item back. -/
theorem allocate_again (places : List α) (items : List β) :
    allocate suits places ((allocate suits places items).1.filterMap Prod.snd ++
      (allocate suits places items).2) = allocate suits places items := by
  induction places generalizing items with
  | nil => simp
  | cons place places ih =>
    have chosen := @allocate_cons _ _ suits place places items
    rcases first_cases (suits place) items with
      ⟨none, rest, unwanted⟩ | ⟨front, first, back, rfl, fits, -, found, rest⟩
    · -- the place has seen every item, so it finds none among them now
      have again : ∀ item ∈ (allocate suits places items).1.filterMap Prod.snd ++
          (allocate suits places items).2, suits place item = false :=
        fun item member => unwanted item ((allocate_perm places items).mem_iff.mp member)
      rw [none, rest] at chosen
      rw [chosen, List.filterMap_cons_none rfl, allocate_cons,
        List.find?_eq_none.mpr (by simpa using again),
        List.eraseP_of_forall_not (by simpa using again), ih]
    · rw [found, rest] at chosen
      simp only [chosen, List.filterMap_cons, List.cons_append, allocate_cons,
        List.find?_cons_of_pos fits, List.eraseP_cons_of_pos fits, ih]

theorem allocate_singleton (places : List α) (item : β) :
    ((allocate suits places [item]).1.filterMap fun (place, held) => held.map fun i => (place, i)) =
        (places.find? (suits · item)).toList.map (fun place => (place, item)) ∧
      (allocate suits places [item]).2 =
        if (places.find? (suits · item)).isSome then [] else [item] := by
  induction places with
  | nil => simp
  | cons place places ih =>
    rw [allocate_cons]
    cases fits : suits place item with
    | true =>
      have nothing : allocate suits places ([] : List β) = (places.map fun p => (p, none), []) :=
        rfl
      simp [fits, nothing]
    | false => simp [fits, ih]

end SearchBar.Allocation
