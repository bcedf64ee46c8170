import SearchBar.Proofs.Overlaying
import SearchBar.Proofs.Settings.Reporting

namespace SearchBar

/-- What a definition says, with nothing to tell it from others that say the same. -/
def Definition.untagged (d : Definition) : Definition :=
  { d with tag := 0 }

theorem map_eq_map_cases {ε α β : Type} {f : α → β} {x y : Except ε α}
    (same : f <$> x = f <$> y) :
    (∃ a b, x = .ok a ∧ y = .ok b ∧ f a = f b) ∨ ∃ fault, x = .error fault ∧ y = .error fault := by
  cases x with
  | ok a =>
    cases y with
    | ok b => exact .inl ⟨a, b, rfl, rfl, Except.ok.inj same⟩
    | error fault => cases same
  | error fault =>
    cases y with
    | ok b => cases same
    | error other => exact .inr ⟨fault, rfl, congrArg Except.error (Except.error.inj same).symm⟩

/-- Definitions that are read from one table differ in their tags only. -/
class LawfulDefinitionReader [DefinitionReader] : Prop where
  untagged (tag other : Nat) (t : Table) :
    Definition.untagged <$> DefinitionReader.read tag t =
      Definition.untagged <$> DefinitionReader.read other t

theorem Validation.definition_untagged (tag : Nat) (t : Table) (factory : Option Factory) :
    Definition.untagged <$> definition tag t factory = definition 0 t factory := by
  simp only [definition]
  generalize Checked.both _ _ = checked
  cases checked <;> rfl

instance : LawfulDefinitionReader where
  untagged tag other t :=
    (Validation.definition_untagged tag t none).trans
      (Validation.definition_untagged other t none).symm

namespace Settings

def untagged (settings : Settings) : Settings :=
  { settings with filters := settings.filters.map Definition.untagged }

variable [DefinitionReader] [LawfulDefinitionReader]

theorem readFilter_untagged (tag other : Nat) (entry : Value) :
    Definition.untagged <$> readFilter tag entry =
      Definition.untagged <$> readFilter other entry := by
  cases entry with
  | table t =>
    rw [readFilter, readFilter]
    obtain ⟨d, e, one, two, same⟩ | ⟨reports, one, two⟩ :=
      map_eq_map_cases (LawfulDefinitionReader.untagged tag other (withSource t))
    · rw [one, two]
      exact congrArg Except.ok same
    · rw [one, two]
  | _ => rfl

theorem readFilters_untagged (tag other number : Nat) (entries : List Value) :
    List.map Definition.untagged <$> readFilters tag number entries =
      List.map Definition.untagged <$> readFilters other number entries := by
  induction entries generalizing tag other number with
  | nil => rfl
  | cons entry entries ih =>
    have first := readFilter_untagged tag other entry
    rw [readFilters, readFilters]
    obtain ⟨d, e, one, two, same⟩ | ⟨fault, one, two⟩ := map_eq_map_cases first
    · rw [one, two]
      obtain ⟨ds, es, more, others, alike⟩ | ⟨fault, more, others⟩ :=
        map_eq_map_cases (ih (tag + 1) (other + 1) (number + 1))
      · rw [more, others]
        exact congrArg Except.ok (congrArg₂ List.cons same alike)
      · rw [more, others]
        rfl
    · rw [one, two]

theorem read_untagged (tag other : Nat) (t : Table) :
    untagged <$> read tag t = untagged <$> read other t := by
  simp only [read, map_bind]
  refine bind_congr fun logging => bind_congr fun level => bind_congr fun plugins =>
    bind_congr fun disabled => bind_congr fun entries => ?_
  obtain ⟨ds, es, one, two, same⟩ | ⟨fault, one, two⟩ :=
    map_eq_map_cases (readFilters_untagged tag other 1 entries)
  · rw [one, two]
    exact congrArg (fun filters => Except.ok (Settings.mk _ level disabled filters)) same
  · rw [one, two]

end Settings

namespace Surroundings

variable {s : Surroundings} {path empty : FilePath} {paths : List FilePath}
  {start : Option FilePath}

theorem held_discover (s : Surroundings) (start : Option FilePath) :
    Yields (fun paths => ∀ path ∈ paths, s.holds path = .ok true) (s.discover start) := by
  unfold discover
  refine (yields_any _).bind fun directory _ => ?_
  refine (yields_itself (s.holds s.userFile)).bind fun there user => ?_
  refine (yields_itself (s.holds (directory ++ [localName]))).bind fun here file => ?_
  have users : ∀ path ∈ (if there then [s.userFile] else []), s.holds path = .ok true := by
    intro path member
    cases there with
    | false => cases member
    | true => exact List.mem_singleton.mp member ▸ user
  revert users
  generalize (if there then [s.userFile] else []) = earlier
  intro users
  split
  · next both =>
    obtain rfl : here = true := (Bool.and_eq_true_iff.mp both).1
    intro path member
    obtain member | member := List.mem_append.mp member
    · exact users path member
    · exact List.mem_singleton.mp member ▸ file
  · exact users

theorem holds_of_mem_discover (found : s.discover start = .ok paths) (member : path ∈ paths) :
    s.holds path = .ok true := by
  have each := s.held_discover start
  rw [found] at each
  exact each path member

section Documents

variable [DocumentReader] [LawfulDocumentReader]

theorem readMerged_singleton (s : Surroundings) (path : FilePath) :
    s.readMerged [] [path] = s.readTable path := by
  have keyed := s.keyed_readTable path
  rw [readMerged]
  cases read : s.readTable path with
  | ok t =>
    rw [read] at keyed
    rw [ok_bind, Table.merge_nil keyed]
    rfl
  | error fault => rfl

/-- A file without entries leaves what another one holds, above it and below it. -/
theorem readMerged_beside_nothing {t : Table} (read : s.readTable path = .ok t)
    (nothing : s.readTable empty = .ok []) :
    s.readMerged [] [path, empty] = .ok t ∧ s.readMerged [] [empty, path] = .ok t := by
  obtain ⟨above, _⟩ := readMerged_pair read nothing
  obtain ⟨below, keyed⟩ := readMerged_pair nothing read
  rw [Table.merge_nil keyed] at below
  exact ⟨above, below⟩

end Documents

section Definitions

variable [DefinitionReader]

theorem settingsOf_of_ok {settings : Settings} {tag : Nat} {name : Option String} {t : Table}
    (read : settingsOf tag name t = .ok settings) (other : Option String) :
    settingsOf tag other t = .ok settings := by
  unfold settingsOf at read ⊢
  cases made : Settings.read tag t with
  | ok own =>
    rw [made] at read
    exact read
  | error fault =>
    rw [made] at read
    cases read

variable [LawfulDefinitionReader]

theorem settingsOf_untagged (tag other : Nat) (name : Option String) (t : Table) :
    Settings.untagged <$> settingsOf tag name t =
      Settings.untagged <$> settingsOf other name t := by
  unfold settingsOf
  obtain ⟨one, two, read, reread, same⟩ | ⟨fault, read, reread⟩ :=
    map_eq_map_cases (Settings.read_untagged tag other t)
  · rw [read, reread]
    exact congrArg Except.ok same
  · rw [read, reread]

end Definitions

section Readers

variable [DocumentReader] [DefinitionReader]

theorem load_of_held (held : s.holds path = .ok true) (tag : Nat) :
    s.load tag (some path) = (s.readTable path >>= settingsOf tag (some (s.pathText path))) := by
  simp only [load, held, ok_bind, if_true]

theorem load_untagged [LawfulDefinitionReader] (s : Surroundings) (tag other : Nat)
    (path : Option FilePath) :
    Settings.untagged <$> s.load tag path = Settings.untagged <$> s.load other path := by
  cases path with
  | none => rfl
  | some path =>
    simp only [load, map_bind]
    refine bind_congr fun held => ?_
    cases held with
    | false => rfl
    | true =>
      rw [if_pos rfl, if_pos rfl, map_bind, map_bind]
      exact bind_congr fun t => settingsOf_untagged tag other _ t

variable [LawfulDocumentReader]

theorem loadMerged_of_single (found : s.discover start = .ok [path]) (tag : Nat) :
    s.loadMerged tag start = s.load tag (some path) := by
  rw [load_of_held (holds_of_mem_discover found List.mem_cons_self)]
  unfold loadMerged
  rw [found, ok_bind, readMerged_singleton]

theorem loadMerged_of_pair {settings : Settings} {tag : Nat}
    (found : s.discover start = .ok [path, empty] ∨ s.discover start = .ok [empty, path])
    (nothing : s.readTable empty = .ok []) (loaded : s.load tag (some path) = .ok settings) :
    s.loadMerged tag start = .ok settings := by
  have held : s.holds path = .ok true := by
    obtain found | found := found
    · exact holds_of_mem_discover found (by simp)
    · exact holds_of_mem_discover found (by simp)
  rw [load_of_held held] at loaded
  cases read : s.readTable path with
  | error fault =>
    rw [read] at loaded
    cases loaded
  | ok t =>
    rw [read, ok_bind] at loaded
    obtain ⟨above, below⟩ := readMerged_beside_nothing read nothing
    unfold loadMerged
    obtain found | found := found
    · rw [found, ok_bind, above, ok_bind]
      exact settingsOf_of_ok loaded none
    · rw [found, ok_bind, below, ok_bind]
      exact settingsOf_of_ok loaded none

open Settings (untagged) in
/-- Reading all files comes to what reading one of them does, but for the tags of the definitions:
always where that is the only one, with every fault there can be, and for settings also where the
other file has no entries, whichever of the two is laid over the other. -/
theorem loadMerged_agrees [LawfulDefinitionReader] (s : Surroundings) (tag other : Nat)
    (start : Option FilePath) :
    (∀ path, s.discover start = .ok [path] →
      untagged <$> s.loadMerged tag start = untagged <$> s.load other (some path)) ∧
    (∀ path empty settings,
      (s.discover start = .ok [path, empty] ∨ s.discover start = .ok [empty, path]) →
        s.readTable empty = .ok [] → s.load other (some path) = .ok settings →
          untagged <$> s.loadMerged tag start = .ok settings.untagged) := by
  refine ⟨fun path found => ?_, fun path empty settings found nothing loaded => ?_⟩
  · rw [loadMerged_of_single found]
    exact s.load_untagged tag other (some path)
  · have same := s.load_untagged other tag (some path)
    rw [loaded] at same
    obtain ⟨_, own, made, loads, alike⟩ | ⟨fault, made, _⟩ := map_eq_map_cases same
    · cases made
      rw [loadMerged_of_pair found nothing loads]
      exact congrArg Except.ok alike.symm
    · cases made

end Readers

def attic : Surroundings where
  tree := ⟨[([".config"], .directory), ([".config", "filterbar"], .directory),
    ([".config", "filterbar", "config.toml"],
      .file "[[filters]]\nid='a'\nname=''\n[[filters.grammar]]\nkind='number'".toUTF8),
    (["filterbar.toml"], .file "".toUTF8)]⟩
  root := ""
  home := []
  current := []

theorem attic_destination :
    attic.tree.destination attic.userFile = .found attic.userFile ∧
    attic.tree.destination ["filterbar.toml"] = .found ["filterbar.toml"] := by
  constructor
  · rw [FileTree.destination_eq rfl (by decide)]
    calc attic.tree.follow FileTree.mostLinks [] [".config", "filterbar", "config.toml"]
        = attic.tree.follow _ [".config"] ["filterbar", "config.toml"] :=
          FileTree.follow_directory (by decide) (by decide) rfl _ _
      _ = attic.tree.follow _ [".config", "filterbar"] ["config.toml"] :=
          FileTree.follow_directory (by decide) (by decide) rfl _ _
      _ = .found [".config", "filterbar", "config.toml"] :=
          FileTree.follow_file (by decide) (by decide) rfl _
  · rw [FileTree.destination_eq rfl (by decide)]
    exact FileTree.follow_file (by decide) (by decide) rfl _

theorem attic_resolved : attic.tree.resolved attic.userFile = .ok attic.userFile ∧
    attic.tree.resolved ["filterbar.toml"] = .ok ["filterbar.toml"] := by
  have linkless : ∀ place target, (place, .link target) ∉ attic.tree.nodes := by simp [attic]
  exact ⟨FileTree.resolved_of_linkless linkless (by decide),
    FileTree.resolved_of_linkless linkless (by decide)⟩

theorem attic_discover : attic.discover none = .ok [attic.userFile, ["filterbar.toml"]] := by
  have user : attic.holds attic.userFile = .ok true := by rw [holds, attic_destination.1]
  have file : attic.holds (attic.current ++ [localName]) = .ok true := by
    show attic.holds ["filterbar.toml"] = _
    rw [holds, attic_destination.2]
  have apart : ([attic.userFile].map fun path => (attic.tree.resolved path).toOption).contains
      (attic.tree.resolved ["filterbar.toml"]).toOption = false := by
    rw [List.map_singleton, attic_resolved.1, attic_resolved.2]
    rfl
  unfold discover startPath
  simp only [ok_bind, user, file]
  show (if (true && !(([attic.userFile].map fun path =>
    (attic.tree.resolved path).toOption).contains
      (attic.tree.resolved ["filterbar.toml"]).toOption)) = true then _ else _) = _
  rw [apart]
  rfl

theorem attic_readText :
    attic.readText attic.userFile =
      .ok "[[filters]]\nid='a'\nname=''\n[[filters.grammar]]\nkind='number'".toList ∧
    attic.readText ["filterbar.toml"] = .ok [] :=
  ⟨readText_of_found attic_destination.1 rfl, readText_of_found attic_destination.2 rfl⟩

theorem attic_readTable : attic.readTable ["filterbar.toml"] = .ok [] := by
  rw [readTable, attic_readText.2]
  rfl

theorem attic_load : (attic.load 0 (some attic.userFile)).isOk = true := by
  have held : attic.holds attic.userFile = .ok true := by rw [holds, attic_destination.1]
  simp only [load, held, ok_bind, if_true, readTable, attic_readText.1]
  decide +kernel

theorem desk_load : (desk.load 0 (some ["filterbar.toml"])).isOk = false := by
  simp only [load, holds_of_readText desk_readText, ok_bind, if_true, readTable, desk_readText]
  decide +kernel

/-- A fault in the only file, and a filter beside a file without entries. -/
theorem desk_and_attic_agree :
    desk.discover none = .ok [["filterbar.toml"]] ∧
    (∃ fault, desk.load 0 (some ["filterbar.toml"]) = .error fault ∧
      Settings.untagged <$> desk.loadMerged 1 none = .error fault) ∧
    attic.discover none = .ok [attic.userFile, ["filterbar.toml"]] ∧
    attic.readTable ["filterbar.toml"] = .ok [] ∧
    ∃ settings, attic.load 0 (some attic.userFile) = .ok settings ∧
      Settings.untagged <$> attic.loadMerged 1 none = .ok settings.untagged := by
  refine ⟨desk_discover, ?_, attic_discover, attic_readTable, ?_⟩
  · have fails := desk_load
    have same := (loadMerged_agrees desk 1 0 none).1 _ desk_discover
    cases loaded : desk.load 0 (some ["filterbar.toml"]) with
    | ok settings =>
      rw [loaded] at fails
      cases fails
    | error fault =>
      rw [loaded] at same
      exact ⟨fault, rfl, same⟩
  · have loads := attic_load
    cases loaded : attic.load 0 (some attic.userFile) with
    | ok settings =>
      exact ⟨settings, rfl, (loadMerged_agrees attic 1 0 none).2 _ _ settings
        (.inl attic_discover) attic_readTable loaded⟩
    | error fault =>
      rw [loaded] at loads
      cases loads

end Surroundings
end SearchBar
