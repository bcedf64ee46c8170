namespace SearchBar.Allocation

variable {α β : Type}

def give? (suits : α → β → Bool) (item : β) :
    List (α × Option β) → Option (List (α × Option β))
  | [] => none
  | (place, held) :: rest =>
    if held.isNone && suits place item then some ((place, some item) :: rest)
    else (give? suits item rest).map ((place, held) :: ·)

/-- The places after all items have been offered in turn, and the items nobody took. -/
def run (suits : α → β → Bool) :
    List (α × Option β) → List β → List (α × Option β) × List β
  | places, [] => (places, [])
  | places, item :: rest =>
    match give? suits item places with
    | some taken => run suits taken rest
    | none =>
      let (final, left) := run suits places rest
      (final, item :: left)

def allocate (suits : α → β → Bool) (places : List α) (items : List β) :
    List (α × Option β) × List β :=
  run suits (places.map fun place => (place, none)) items

end SearchBar.Allocation
