import SearchBar.Settings.Files
import SearchBar.Proofs.Following
import Mathlib.Data.List.Forall2

namespace SearchBar

theorem ok_bind {ε α β : Type} (a : α) (f : α → Except ε β) : (Except.ok a >>= f) = f a := rfl

namespace Settings

def Reported : Except SettingsFault Settings → Prop
  | .ok _ | .error (.cause _) => True
  | .error _ => False

def IsSection : Option Value → Prop
  | none | some (.table _) => True
  | some _ => False

instance : DecidablePred IsSection
  | none | some (.table _) => isTrue trivial
  | some .null | some (.bool _) | some (.int _) | some (.float _) | some (.text _)
  | some (.date _) | some (.time _) | some (.moment _) | some (.array _) => isFalse id

def IsListable : Option Value → Prop
  | none | some (.array _) | some (.text _) | some (.table _) => True
  | some _ => False

instance : DecidablePred IsListable
  | none | some (.array _) | some (.text _) | some (.table _) => isTrue trivial
  | some .null | some (.bool _) | some (.int _) | some (.float _)
  | some (.date _) | some (.time _) | some (.moment _) => isFalse id

def entries (t : Table) (name : String) : Table :=
  match t.get? name with
  | some (.table inner) => inner
  | _ => []

def levelName (logging : Table) : Except Value.DisplayFault String :=
  match logging.get? "level" with
  | none => .ok "INFO"
  | some value => value.shown.map fun text => String.ofList (Text.upper text.toList)

/-- Everything that is looked at behind the level has a form that can be read. -/
def IsReadableBehind (t : Table) : Prop :=
  IsSection (t.get? "plugins") ∧ IsListable ((entries t "plugins").get? "disabled") ∧
    IsListable (t.get? "filters")

instance : DecidablePred IsReadableBehind :=
  fun _ => inferInstanceAs (Decidable (_ ∧ _ ∧ _))

/-- What comes behind the level matters only if the level is known. -/
def IsReadable (t : Table) : Prop :=
  IsSection (t.get? "logging") ∧ ∃ name, levelName (entries t "logging") = .ok name ∧
    ((Level.ofName? name).isSome → IsReadableBehind t)

instance : DecidablePred IsReadable := fun t =>
  match shown : levelName (entries t "logging") with
  | .error _ => isFalse fun ⟨_, _, given, _⟩ => nomatch shown.symm.trans given
  | .ok name =>
    decidable_of_iff (IsSection (t.get? "logging") ∧
        ((Level.ofName? name).isSome → IsReadableBehind t))
      ⟨fun ⟨logging, behind⟩ => ⟨logging, name, shown, behind⟩,
        fun ⟨logging, _, given, behind⟩ =>
          ⟨logging, Except.ok.inj (given.symm.trans shown) ▸ behind⟩⟩

variable {t : Table} {name : String}

theorem readSection_of_isSection (fits : IsSection (t.get? name)) :
    readSection t name = .ok (entries t name) := by
  unfold readSection entries
  cases found : t.get? name with
  | none => rfl
  | some value =>
    rw [found] at fits
    cases value with
    | table inner => rfl
    | _ => exact False.elim fits

theorem readSection_of_not_isSection (unfit : ¬ IsSection (t.get? name)) :
    readSection t name = .error .sectionNotTable := by
  unfold readSection
  cases found : t.get? name with
  | none =>
    rw [found] at unfit
    exact False.elim (unfit trivial)
  | some value =>
    rw [found] at unfit
    cases value with
    | table inner => exact False.elim (unfit trivial)
    | _ => rfl

theorem readMembers_of_isListable (fits : IsListable (t.get? name)) :
    ∃ members, readMembers t name = .ok members := by
  unfold readMembers
  cases found : t.get? name with
  | none => exact ⟨[], rfl⟩
  | some value =>
    rw [found] at fits
    cases value with
    | array items => exact ⟨_, rfl⟩
    | text text => exact ⟨_, rfl⟩
    | table inner => exact ⟨_, rfl⟩
    | _ => exact False.elim fits

theorem readMembers_of_not_isListable (unfit : ¬ IsListable (t.get? name)) :
    readMembers t name = .error .notListable := by
  unfold readMembers
  cases found : t.get? name with
  | none =>
    rw [found] at unfit
    exact False.elim (unfit trivial)
  | some value =>
    rw [found] at unfit
    cases value with
    | array items => exact False.elim (unfit trivial)
    | text text => exact False.elim (unfit trivial)
    | table inner => exact False.elim (unfit trivial)
    | _ => rfl

theorem readLevel_eq (logging : Table) : readLevel logging =
    match levelName logging with
    | .error fault => .error (.notShown fault)
    | .ok name =>
      match Level.ofName? name with
      | some level => .ok level
      | none => .error (.cause (.unknownLevel name)) := by
  unfold readLevel levelName
  cases logging.get? "level" with
  | none => rfl
  | some value =>
    simp only
    cases value.shown with
    | error fault => rfl
    | ok text => rfl

variable [DefinitionReader]

theorem readFilters_cases (tag number : Nat) (entries : List Value) :
    (∃ filters, readFilters tag number entries = .ok filters) ∨
      ∃ cause, readFilters tag number entries = .error (.cause cause) := by
  induction entries generalizing tag number with
  | nil => exact .inl ⟨[], rfl⟩
  | cons entry entries ih =>
    rw [readFilters]
    split
    · exact .inr ⟨_, rfl⟩
    · rcases ih (tag + 1) (number + 1) with ⟨filters, made⟩ | ⟨cause, failed⟩
      · exact .inl ⟨_, by rw [made]; rfl⟩
      · exact .inr ⟨cause, by rw [failed]; rfl⟩

theorem reported_behind_iff (tag : Nat) (t : Table) (enabled : Value) (level : Level) :
    Reported (do
      let plugins ← readSection t "plugins"
      let disabled ← readMembers plugins "disabled"
      let entries ← readMembers t "filters"
      let filters ← readFilters tag 1 entries
      return ⟨enabled, level, disabled, filters⟩) ↔ IsReadableBehind t := by
  by_cases plugins : IsSection (t.get? "plugins")
  · rw [readSection_of_isSection plugins, ok_bind]
    by_cases disabled : IsListable ((entries t "plugins").get? "disabled")
    · obtain ⟨names, listed⟩ := readMembers_of_isListable disabled
      rw [listed, ok_bind]
      by_cases filters : IsListable (t.get? "filters")
      · obtain ⟨members, given⟩ := readMembers_of_isListable filters
        rw [given, ok_bind]
        refine iff_of_true ?_ ⟨plugins, disabled, filters⟩
        rcases readFilters_cases tag 1 members with ⟨made, all⟩ | ⟨cause, failed⟩
        · rw [all]
          trivial
        · rw [failed]
          trivial
      · rw [readMembers_of_not_isListable filters]
        exact iff_of_false id fun fits => filters fits.2.2
    · rw [readMembers_of_not_isListable disabled]
      exact iff_of_false id fun fits => disabled fits.2.1
  · rw [readSection_of_not_isSection plugins]
    exact iff_of_false id fun fits => plugins fits.1

theorem reported_read_iff (tag : Nat) (t : Table) : Reported (read tag t) ↔ IsReadable t := by
  unfold read
  by_cases logging : IsSection (t.get? "logging")
  · rw [readSection_of_isSection logging, ok_bind, readLevel_eq]
    cases shown : levelName (entries t "logging") with
    | error fault =>
      refine iff_of_false id ?_
      rintro ⟨-, name, written, -⟩
      cases shown.symm.trans written
    | ok name =>
      have readable_iff :
          IsReadable t ↔ ((Level.ofName? name).isSome → IsReadableBehind t) := by
        simp [IsReadable, logging, shown]
      rw [readable_iff]
      cases known : Level.ofName? name with
      | none =>
        simp only [known]
        exact iff_of_true trivial nofun
      | some level =>
        simp only [known]
        exact (reported_behind_iff tag t _ level).trans ⟨fun fits _ => fits, fun fits => fits rfl⟩
  · rw [readSection_of_not_isSection logging]
    exact iff_of_false id fun readable => logging readable.1

end Settings

namespace Surroundings

variable {s : Surroundings} {path : FilePath} {document : Text} {paths : List FilePath}
  {documents : List Text} {below : Table}

def Reported {α : Type} : Except LoadFault α → Prop
  | .ok _ | .error (.config _) => True
  | .error _ => False

theorem readText_of_found {place : FilePath} {text : String}
    (found : s.tree.destination path = .found place)
    (node : s.tree.node? place = some (.file text.toUTF8)) :
    s.readText path = .ok (withNewlines text.toList) := by
  have decoded : String.fromUTF8? text.toUTF8 = some text := by
    simp only [String.fromUTF8?]
    exact dif_pos (String.isValidUTF8 _)
  unfold readText FileTree.open?
  simp only [found, node, decoded]

theorem holds_of_readText (readable : s.readText path = .ok document) :
    s.holds path = .ok true := by
  unfold readText FileTree.open? at readable
  unfold holds
  cases found : s.tree.destination path with
  | found place => rfl
  | _ =>
    rw [found] at readable
    cases readable

theorem reported_merge_iff {α : Type} (below t : Table) (f : Table → Except LoadFault α) :
    Reported ((Table.merge below t).mapError (fun _ => .tooDeep) >>= f) ↔
      Table.meetings below t ≤ Table.mostMeetings ∧ Reported (f (Table.overlay below t)) := by
  unfold Table.merge
  split
  · next deep => exact iff_of_false id fun fits => Nat.not_lt_of_le fits.1 deep
  · next fits => exact (and_iff_right (Nat.le_of_not_lt fits)).symm

theorem reported_settingsOf_iff [DefinitionReader] (tag : Nat) (path : Option String) (t : Table) :
    Reported (settingsOf tag path t) ↔ Settings.IsReadable t := by
  rw [← Settings.reported_read_iff tag]
  unfold settingsOf
  cases Settings.read tag t with
  | ok settings => exact Iff.rfl
  | error fault =>
    cases fault with
    | cause cause => exact Iff.rfl
    | sectionNotTable => exact Iff.rfl
    | notListable => exact Iff.rfl
    | notShown fault => cases fault <;> exact Iff.rfl

section Readers

variable [DocumentReader]

/-- The document is read into a table that is good, or it breaks the rules of its language and the
line that the message names can be given. -/
def Passes (good : Table → Prop) (document : Text) : Prop :=
  match DocumentReader.read document with
  | .ok t => good t
  | .error (.invalid what) => (Text.lineNumber? what.message.toList).isOk = true
  | .error _ => False

instance {good : Table → Prop} [DecidablePred good] : DecidablePred (Passes good) :=
  fun document =>
    match parsed : DocumentReader.read document with
    | .ok t => decidable_of_iff (good t) (by rw [Passes, parsed])
    | .error (.invalid what) =>
      decidable_of_iff ((Text.lineNumber? what.message.toList).isOk = true)
        (by rw [Passes, parsed])
    | .error .longInteger => isFalse (by rw [Passes, parsed]; exact id)
    | .error .tooDeep => isFalse (by rw [Passes, parsed]; exact id)

/-- Each document passes and can be laid over those before it, and the whole can be read. -/
def PassesOver (below : Table) : List Text → Prop
  | [] => Settings.IsReadable below
  | document :: rest =>
    Passes (fun t => Table.meetings below t ≤ Table.mostMeetings ∧
      PassesOver (Table.overlay below t) rest) document

def decidablePassesOver (below : Table) :
    (documents : List Text) → Decidable (PassesOver below documents)
  | [] => inferInstanceAs (Decidable (Settings.IsReadable below))
  | document :: rest =>
    have : DecidablePred fun t => Table.meetings below t ≤ Table.mostMeetings ∧
        PassesOver (Table.overlay below t) rest := fun t =>
      have := decidablePassesOver (Table.overlay below t) rest
      inferInstanceAs (Decidable (_ ∧ _))
    inferInstanceAs (Decidable (Passes _ document))

instance : DecidablePred (PassesOver below) := decidablePassesOver below

theorem reported_parse_iff {α : Type} (path : String) (document : Text)
    (f : Table → Except LoadFault α) :
    Reported ((DocumentReader.read document).mapError (unreadable path) >>= f) ↔
      Passes (fun t => Reported (f t)) document := by
  unfold Passes
  cases DocumentReader.read document with
  | ok t => exact Iff.rfl
  | error fault =>
    cases fault with
    | invalid what =>
      show Reported (Except.error (unreadable path (.invalid what))) ↔ _ = true
      cases named : Text.lineNumber? what.message.toList <;>
        simp [unreadable, named, Reported, Except.isOk, Except.toBool]
    | longInteger => exact Iff.rfl
    | tooDeep => exact Iff.rfl

variable [DefinitionReader]

theorem reported_load_iff (tag : Nat) (readable : s.readText path = .ok document) :
    Reported (s.load tag (some path)) ↔ Passes Settings.IsReadable document := by
  unfold load
  simp only [holds_of_readText readable, ok_bind, if_true, readTable, readable]
  rw [reported_parse_iff]
  simp only [reported_settingsOf_iff]

theorem reported_readMerged_iff (tag : Nat) (name : Option String)
    (readable : List.Forall₂ (fun path document => s.readText path = .ok document)
      paths documents) :
    Reported (s.readMerged below paths >>= settingsOf tag name) ↔ PassesOver below documents := by
  induction readable generalizing below with
  | nil => exact reported_settingsOf_iff tag name below
  | @cons path document paths documents first _ ih =>
    simp only [readMerged, readTable, first, ok_bind, bind_assoc]
    rw [reported_parse_iff]
    simp only [reported_merge_iff, ih]
    rfl

theorem reported_loadMerged_iff (tag : Nat) {start : Option FilePath}
    (found : s.discover start = .ok paths)
    (readable : List.Forall₂ (fun path document => s.readText path = .ok document)
      paths documents) :
    Reported (s.loadMerged tag start) ↔ PassesOver [] documents := by
  unfold loadMerged
  rw [found, ok_bind]
  exact reported_readMerged_iff tag _ readable

/-- Settings of a table, of a file and of all files that are found: there are some, or there is a
fault of the configuration, exactly if the tables can be read and laid over each other. -/
theorem faults_reported_iff (s : Surroundings) (tag : Nat) :
    (∀ t, Settings.Reported (Settings.read tag t) ↔ Settings.IsReadable t) ∧
    (∀ path document, s.readText path = .ok document →
      (Reported (s.load tag (some path)) ↔ Passes Settings.IsReadable document)) ∧
    (∀ start paths documents, s.discover start = .ok paths →
      List.Forall₂ (fun path document => s.readText path = .ok document) paths documents →
        (Reported (s.loadMerged tag start) ↔ PassesOver [] documents)) :=
  ⟨Settings.reported_read_iff tag, fun _ _ => reported_load_iff tag,
    fun _ _ _ => reported_loadMerged_iff tag⟩

end Readers

def folder (content : String) : Surroundings where
  tree := ⟨[(["filterbar.toml"], .file content.toUTF8)]⟩
  root := ""
  home := ["home"]
  current := []

theorem folder_local (content : String) :
    (folder content).tree.destination ["filterbar.toml"] = .found ["filterbar.toml"] := by
  rw [FileTree.destination_eq rfl (by decide)]
  exact FileTree.follow_file (by decide) (by decide) rfl _

theorem folder_readText (content : String) :
    (folder content).readText ["filterbar.toml"] = .ok (withNewlines content.toList) :=
  readText_of_found (folder_local content) rfl

def desk : Surroundings where
  tree := ⟨[(["filterbar.toml"], .file "filters=[5]".toUTF8)]⟩
  root := ""
  home := ["home"]
  current := []

theorem desk_local : desk.tree.destination ["filterbar.toml"] = .found ["filterbar.toml"] :=
  folder_local "filters=[5]"

theorem desk_user : desk.tree.destination desk.userFile = .missing := by
  rw [FileTree.destination_eq rfl (by decide)]
  exact FileTree.follow_nowhere (by decide) (by decide) rfl _ _ _

theorem desk_discover : desk.discover none = .ok [["filterbar.toml"]] := by
  have user : desk.holds desk.userFile = .ok false := by rw [holds, desk_user]
  have file : desk.holds (desk.current ++ [localName]) = .ok true := by
    show desk.holds ["filterbar.toml"] = _
    rw [holds, desk_local]
  unfold discover startPath
  simp only [ok_bind, user, file]
  rfl

theorem desk_readText : desk.readText ["filterbar.toml"] = .ok "filters=[5]".toList :=
  readText_of_found desk_local rfl

theorem number_reported :
    desk.discover none = .ok [["filterbar.toml"]] ∧
    desk.readText ["filterbar.toml"] = .ok "filters=[5]".toList ∧
    Settings.Reported (Settings.read 0 [("filters", .array [.int 5])]) ∧
    Reported (desk.load 0 (some ["filterbar.toml"])) ∧
    Reported (desk.loadMerged 0 none) := by
  obtain ⟨tables, one, all⟩ := faults_reported_iff desk 0
  refine ⟨desk_discover, desk_readText, (tables _).mpr (by decide +kernel), ?_, ?_⟩
  · rw [one _ _ desk_readText]
    decide +kernel
  · rw [all _ _ _ desk_discover (.cons desk_readText .nil)]
    decide +kernel

/-- Numbers where a section, the names of plugins and the filters are expected. -/
theorem misplaced_numbers_unreported :
    ¬ Settings.Reported (Settings.read 0 [("logging", .int 5)]) ∧
    ¬ Settings.Reported (Settings.read 0 [("plugins", .table [("disabled", .int 5)])]) ∧
    ¬ Settings.Reported (Settings.read 0 [("filters", .int 5)]) :=
  ⟨id, id, id⟩

end Surroundings
end SearchBar
