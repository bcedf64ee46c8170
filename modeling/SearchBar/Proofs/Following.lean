import SearchBar.FileTree.Basic

namespace SearchBar.FileTree

variable {tree : FileTree} {place path : FilePath} {name : String}

theorem follow_directory (plain : name ≠ "..") (short : name.utf8ByteSize ≤ FilePath.longestName)
    (node : tree.node? (place ++ [name]) = some .directory) (links : Nat) (rest : List String) :
    tree.follow links place (name :: rest) = tree.follow links (place ++ [name]) rest := by
  rw [follow.eq_3 _ _ _ _ _ plain, if_neg (Nat.not_lt_of_le short)]
  simp only [node]

theorem follow_file {content : ByteArray} (plain : name ≠ "..")
    (short : name.utf8ByteSize ≤ FilePath.longestName)
    (node : tree.node? (place ++ [name]) = some (.file content)) (links : Nat) :
    tree.follow links place [name] = .found (place ++ [name]) := by
  rw [follow.eq_3 _ _ _ _ _ plain, if_neg (Nat.not_lt_of_le short)]
  simp only [node]
  rfl

theorem follow_nowhere (plain : name ≠ "..") (short : name.utf8ByteSize ≤ FilePath.longestName)
    (node : tree.node? (place ++ [name]) = none) (links : Nat) (next : String)
    (rest : List String) : tree.follow links place (name :: next :: rest) = .missing := by
  rw [follow.eq_3 _ _ _ _ _ plain, if_neg (Nat.not_lt_of_le short)]
  simp only [node]
  rfl

theorem destination_eq (names : place.any FilePath.isNullName = false)
    (path : place.isLong = false) :
    tree.destination place = tree.follow mostLinks [] place := by
  rw [destination, names, path]
  rfl

theorem resolve_of_linkless (linkless : ∀ place target, (place, .link target) ∉ tree.nodes)
    (depth : Nat) (passing : List FilePath) (place : FilePath)
    (plain : ∀ name ∈ path, name ≠ ".." ∧ FilePath.isNullName name = false) :
    tree.resolve depth passing place path = .plain (place ++ path) := by
  induction path generalizing place with
  | nil => rw [resolve.eq_1, List.append_nil]
  | cons name path ih =>
    obtain ⟨⟨down, named⟩, plain⟩ := List.forall_mem_cons.mp plain
    have unlinked : ∀ target, tree.node? (place ++ [name]) ≠ some (.link target) := by
      intro target found
      unfold node? at found
      split at found
      · cases found
      · obtain ⟨front, back, nodes, -⟩ := List.lookup_eq_some_iff.mp found
        exact linkless (place ++ [name]) target (by simp [nodes])
    rw [resolve.eq_3 _ _ _ _ _ _ down, named]
    split
    · next both => cases both
    · split
      · next target found => exact absurd found (unlinked target)
      · rw [ih _ plain, List.append_assoc, List.singleton_append]

theorem resolved_of_linkless (linkless : ∀ place target, (place, .link target) ∉ tree.nodes)
    (plain : ∀ name ∈ path, name ≠ ".." ∧ FilePath.isNullName name = false) :
    tree.resolved path = .ok path := by
  rw [resolved, resolve_of_linkless linkless _ _ _ plain]
  rfl

end SearchBar.FileTree
