import SearchBar.Proofs.Quoting
import SearchBar.Proofs.Settings.Reporting

namespace SearchBar

namespace Toml

open Text (lineDigits? lineNumber? Detached numberIn longestInteger isWritable)

def Place.line : Place → Option Int
  | documentEnd => none
  | spot line _ => some line

/-- The pieces of the document that a fault quotes in its message. -/
def Fault.quotes : Fault → List Text
  | declaredTwice key | redefined key | immutable key => key.map String.toList
  | duplicateKey name => [name.toList]
  | unclosed delimiter => [delimiter]
  | illegal c | illegalLiteral c => [[c]]
  | _ => []

/-- The first piece that a fault quotes and that cites a line cites it by these digits. -/
def Fault.Cites (fault : Fault) (digits : Text) : Prop :=
  ∃ earlier quote later, fault.quotes = earlier ++ quote :: later ∧ Text.Cites quote digits ∧
    ∀ other ∈ earlier, ∀ others, ¬ Text.Cites other others

variable {fault : Fault} {digits : Text}

theorem lineDigits?_quoted (text : Text) :
    lineDigits? (Text.quoted text).toList = lineDigits? text := by
  rw [Text.quoted, String.toList_ofList, Text.lineDigits?_quote]

theorem lineDigits?_append_quoted {front : String} (silent : lineDigits? front.toList = none)
    (text : Text) :
    lineDigits? (front ++ Text.quoted text).toList = [text].findSome? lineDigits? := by
  have apart : Detached (Text.quoted text).toList := by
    rw [Text.quoted, String.toList_ofList]
    exact Text.detached_cons (Text.isCiting_quoteMark text) _
  rw [String.toList_append, apart.lineDigits?_append_right silent, lineDigits?_quoted]
  simp

theorem lineDigits?_parts (parts : List String) :
    lineDigits? (", ".intercalate (parts.map fun part => Text.quoted part.toList)).toList =
      (parts.map String.toList).findSome? lineDigits? := by
  rw [String.toList_intercalate, List.map_map]
  refine (Text.lineDigits?_intercalate _).trans ?_
  have same : (lineDigits? ∘ String.toList ∘ fun part => Text.quoted part.toList) =
      lineDigits? ∘ String.toList := by
    funext part
    rw [Function.comp_apply, Function.comp_apply, lineDigits?_quoted, Function.comp_apply]
  rw [List.findSome?_map, List.findSome?_map, same]

theorem Key.text_eq (key : Key) : ∃ inside, key.text.toList = '(' :: inside ++ [')'] ∧
    lineDigits? inside = (key.map String.toList).findSome? lineDigits? := by
  unfold Key.text
  split
  · next part =>
    refine ⟨(Text.quoted part.toList).toList ++ [','], by simp, ?_⟩
    rw [(Text.detached_cons (c := ',') (by decide) []).lineDigits?_append_left (by decide),
      lineDigits?_quoted]
    simp
  · exact ⟨_, by simp [Text.bracketed], lineDigits?_parts key⟩

theorem lineDigits?_append_key {front : String} (silent : lineDigits? front.toList = none)
    (key : Key) : lineDigits? (front ++ key.text).toList =
      (key.map String.toList).findSome? lineDigits? := by
  obtain ⟨inside, written, cited⟩ := key.text_eq
  calc lineDigits? (front ++ key.text).toList
      = lineDigits? ((front.toList ++ '(' :: inside) ++ [')']) := by
        rw [String.toList_append, written, List.append_assoc]
    _ = lineDigits? (front.toList ++ '(' :: inside) :=
        (Text.detached_cons (by decide) []).lineDigits?_append_left (by decide)
    _ = lineDigits? inside := by
        rw [Text.lineDigits?_append_cons (by decide), silent]
        rfl
    _ = (key.map String.toList).findSome? lineDigits? := cited

/-- What is fixed in a message cites no line and keeps apart from what is quoted in it. -/
theorem Fault.lineDigits?_message (fault : Fault) :
    lineDigits? fault.message.toList = fault.quotes.findSome? lineDigits? := by
  cases fault with
  | declaredTwice key =>
    have twice : Detached " twice".toList := by decide
    show lineDigits? ("Cannot declare " ++ key.text ++ " twice").toList = _
    rw [String.toList_append, twice.lineDigits?_append_left (by decide)]
    exact lineDigits?_append_key (by decide) key
  | redefined key => exact lineDigits?_append_key (by decide) key
  | immutable key => exact lineDigits?_append_key (by decide) key
  | duplicateKey name => exact lineDigits?_append_quoted (by decide) name.toList
  | unclosed delimiter => exact lineDigits?_append_quoted (by decide) delimiter
  | illegal c => exact lineDigits?_append_quoted (by decide) [c]
  | illegalLiteral c => exact lineDigits?_append_quoted (by decide) [c]
  | _ => decide

theorem Fault.cites_iff : Text.Cites fault.message.toList digits ↔ fault.Cites digits := by
  rw [← Text.lineDigits?_eq_some_iff, lineDigits?_message, List.findSome?_eq_some_iff]
  simp only [Fault.Cites, Text.lineDigits?_eq_some_iff, Text.lineDigits?_eq_none_iff]

def Place.shown (place : Place) : Text :=
  (" (at " ++ place.text ++ ")").toList

theorem Located.toList_message (what : Located) :
    what.message.toList = what.description.toList ++ what.place.shown := by
  simp [message, Place.shown]

theorem Place.detached_shown (place : Place) : Detached place.shown := by
  have written : place.shown = ' ' :: '(' :: ("at " ++ place.text ++ ")").toList := by
    simp [Place.shown]
  rw [written]
  intro c member
  rw [List.takeWhile_cons_of_pos (by decide), List.takeWhile_cons_of_neg (by decide)] at member
  rw [List.mem_singleton.mp member]
  decide

theorem Place.lineDigits?_spot (line column : Nat) :
    lineDigits? (spot line column).shown = some (Nat.toDigits 10 line) := by
  have digits : ∀ c ∈ Nat.toDigits 10 line, (Text.digitValue? c).isSome = true := fun c member =>
    Text.isSome_of_isDigit (Nat.isDigit_of_mem_toDigits (by decide) (Nat.le_refl 10) member)
  have written : (spot line column).shown = " (at ".toList ++ (['l', 'i', 'n', 'e'] ++
      ' ' :: Nat.toDigits 10 line ++ ',' :: (" column " ++ toString column ++ ")").toList) := by
    simp [Place.shown, Place.text]
  have begins : Text.BeginsCiting (['l', 'i', 'n', 'e'] ++ ' ' :: Nat.toDigits 10 line ++
      ',' :: (" column " ++ toString column ++ ")").toList) (Nat.toDigits 10 line) := by
    refine ⟨_, _, rfl, ⟨rfl, rfl, rfl, rfl⟩, Nat.toDigits_ne_nil, digits, fun c head => ?_⟩
    rw [← Option.some.inj head]
    decide
  rw [written, Text.lineDigits?_append_of_isWordless (by decide)]
  exact Text.lineDigits?_eq_some_iff.mpr ⟨0, begins, nofun⟩

theorem Place.lineDigits?_documentEnd : lineDigits? documentEnd.shown = none := by
  decide

/-- The number that is found behind a description is that of its own first citation, and that of
the place only where it has none. -/
theorem lineNumber?_shown (description : Text) (place : Place)
    (writable : ∀ n ∈ place.line, isWritable n = true) :
    lineNumber? (description ++ place.shown) =
      match lineDigits? description with
      | none => .ok place.line
      | some digits =>
        if digits.length ≤ longestInteger then .ok (some (numberIn digits))
        else .error .tooLong := by
  rw [Text.lineNumber?_eq, place.detached_shown.lineDigits?_append]
  cases lineDigits? description with
  | some digits => rfl
  | none =>
    rw [Option.none_or]
    cases place with
    | documentEnd => rw [Place.lineDigits?_documentEnd]; rfl
    | spot line column =>
      have short := Text.length_toDigits_of_isWritable (writable line rfl)
      simp only [Place.lineDigits?_spot, if_pos short, Text.numberIn_toDigits]
      rfl

theorem lineNumber?_shown_eq_iff (description : Text) (place : Place)
    (writable : ∀ n ∈ place.line, isWritable n = true) :
    lineNumber? (description ++ place.shown) = .ok place.line ↔
      ∀ digits, Text.Cites description digits →
        digits.length ≤ longestInteger ∧ place.line = some (numberIn digits : Int) := by
  rw [lineNumber?_shown description place writable]
  cases found : lineDigits? description with
  | none =>
    have none_cited := Text.lineDigits?_eq_none_iff.mp found
    exact iff_of_true rfl fun digits cited => absurd cited (none_cited digits)
  | some digits =>
    have cited := Text.lineDigits?_eq_some_iff.mp found
    have only : ∀ others, Text.Cites description others ↔ digits = others :=
      fun others => ⟨cited.unique, fun same => same ▸ cited⟩
    simp only [only, forall_eq']
    by_cases short : digits.length ≤ longestInteger <;> simp [short, eq_comm]

theorem parse_of_statements {document rest : Text} {spot : Place}
    (stopped : (statements (document.length + 1) .start document).map (fun _ => ()) =
      .error (.fault fault rest))
    (there : place document rest = spot) :
    parse document = .error (.invalid ⟨fault.message, spot⟩) := by
  subst there
  unfold parse
  cases made : statements (document.length + 1) .start document with
  | ok p =>
    rw [made] at stopped
    cases stopped
  | error stop =>
    rw [made] at stopped
    cases stopped
    rfl

theorem description_of_parse {document : Text} {what : Located}
    (invalid : parse document = .error (.invalid what)) :
    ∃ fault : Fault, what.description = fault.message := by
  unfold parse at invalid
  split at invalid
  · cases invalid
  · cases invalid
    exact ⟨_, rfl⟩
  · cases invalid
  · cases invalid

end Toml

namespace Surroundings

open Text (lineNumber? longestInteger numberIn isWritable)

variable {s : Surroundings} {path : FilePath} {document : Text} {what : Toml.Located}

theorem readTable_of_invalid [DocumentReader] (readable : s.readText path = .ok document)
    (invalid : DocumentReader.read document = .error (.invalid what)) :
    s.readTable path = .error (unreadable (s.pathText path) (.invalid what)) := by
  rw [readTable, readable, ok_bind, invalid]
  rfl

theorem unreadable_eq_iff {name : String} {line : Option Int} :
    unreadable name (.invalid what) = .config ⟨.unreadable what, line, some name⟩ ↔
      lineNumber? what.message.toList = .ok line := by
  rw [unreadable]
  cases lineNumber? what.message.toList <;> simp

/-- The line that is told is that of the place at the end of the message, exactly if nothing in
front of the place cites another line. In a message about a document only what it quotes can. -/
theorem line_told_iff [DocumentReader] (s : Surroundings) :
    (∀ (description : String) (line column : Nat), isWritable line = true →
      (lineNumber? (description ++ " (at line " ++ toString line ++ ", column " ++
          toString column ++ ")").toList = .ok (some (line : Int)) ↔
        ∀ digits, Text.Cites description.toList digits →
          digits.length ≤ longestInteger ∧ numberIn digits = line)) ∧
    (∀ description : String,
      lineNumber? (description ++ " (at end of document)").toList = .ok none ↔
        ∀ digits, ¬ Text.Cites description.toList digits) ∧
    (∀ path document what, s.readText path = .ok document →
      DocumentReader.read document = .error (.invalid what) →
      (∀ n ∈ what.place.line, isWritable n = true) →
        (s.readTable path =
            .error (.config ⟨.unreadable what, what.place.line, some (s.pathText path)⟩) ↔
          ∀ digits, Text.Cites what.description.toList digits →
            digits.length ≤ longestInteger ∧ what.place.line = some (numberIn digits : Int))) ∧
    (∀ document what, Toml.parse document = .error (.invalid what) →
      ∃ fault : Toml.Fault, what.description = fault.message ∧
        ∀ digits, Text.Cites what.description.toList digits ↔ fault.Cites digits) := by
  refine ⟨fun description line column writable => ?_, fun description => ?_,
    fun path document what readable invalid writable => ?_, fun document what invalid => ?_⟩
  · have message : (description ++ " (at line " ++ toString line ++ ", column " ++
        toString column ++ ")").toList =
          description.toList ++ (Toml.Place.spot line column).shown := by
      simp [Toml.Place.shown, Toml.Place.text]
    have told := Toml.lineNumber?_shown_eq_iff description.toList (.spot line column)
      fun n same => Option.some.inj same ▸ writable
    rw [message]
    refine told.trans (forall₂_congr fun digits cited => and_congr_right fun short => ?_)
    rw [Toml.Place.line, Option.some_inj, Int.natCast_inj, eq_comm]
  · have message : (description ++ " (at end of document)").toList =
        description.toList ++ Toml.Place.documentEnd.shown := by
      simp [Toml.Place.shown, Toml.Place.text]
    have told := Toml.lineNumber?_shown_eq_iff description.toList .documentEnd
      (fun n own => absurd own (Option.not_mem_none n))
    rw [message]
    exact told.trans (forall₂_congr fun digits cited =>
      iff_of_false (fun both => Option.some_ne_none _ both.2.symm) id)
  · rw [readTable_of_invalid readable invalid, Except.error.injEq, unreadable_eq_iff,
      what.toList_message, Toml.lineNumber?_shown_eq_iff _ _ writable]
  · obtain ⟨fault, same⟩ := Toml.description_of_parse invalid
    exact ⟨fault, same, fun digits => same ▸ Toml.Fault.cites_iff⟩

theorem unreadable_of_cites {digits : Text} (cited : Text.Cites what.description.toList digits)
    (name : String) :
    unreadable name (.invalid what) =
      if digits.length ≤ longestInteger then
        .config ⟨.unreadable what, some (numberIn digits : Int), some name⟩
      else .longInteger := by
  have found := Text.lineDigits?_eq_some_iff.mpr cited
  rw [unreadable, what.toList_message, Text.lineNumber?_eq,
    what.place.detached_shown.lineDigits?_append, found, Option.some_or]
  by_cases short : digits.length ≤ longestInteger
  · simp only [if_pos short]
  · simp only [if_neg short]

theorem read_eq_parse (document : Text) : DocumentReader.read document = Toml.parse document :=
  rfl

def declaring (key : String) : String :=
  "[" ++ key ++ "]\nx = 1\n[" ++ key ++ "]"

def declaredAgain (key : Toml.Key) (column : Nat) : Toml.Located :=
  ⟨(Toml.Fault.declaredTwice key).message, .spot 3 column⟩

theorem declaredAgain_cites_iff {key : Toml.Key} {column : Nat} {digits : Text} :
    Text.Cites (declaredAgain key column).description.toList digits ↔
      (Toml.Fault.declaredTwice key).Cites digits :=
  Toml.Fault.cites_iff

theorem parse_declaring {text : String} {key : Toml.Key} {column : Nat}
    (stopped : (Toml.statements ((withNewlines (declaring text).toList).length + 1) .start
      (withNewlines (declaring text).toList)).map (fun _ => ()) =
        .error (.fault (.declaredTwice key) [']']))
    (there : Toml.place (withNewlines (declaring text).toList) [']'] = .spot 3 column) :
    Toml.parse (withNewlines (declaring text).toList) =
      .error (.invalid (declaredAgain key column)) :=
  Toml.parse_of_statements stopped there

def chapterFault : Toml.Located :=
  declaredAgain ["page 9", "line 3"] 19

theorem parse_chapter : Toml.parse (withNewlines (declaring "'page 9'.'line 3'").toList) =
    .error (.invalid chapterFault) :=
  parse_declaring (by decide +kernel) (by decide +kernel)

theorem chapterFault_cites : Text.Cites chapterFault.description.toList ['3'] :=
  declaredAgain_cites_iff.mpr
    ⟨["page 9".toList], "line 3".toList, [], rfl, by decide, fun _ member =>
      List.mem_singleton.mp member ▸ Text.lineDigits?_eq_none_iff.mp (by decide)⟩

/-- The second part of the key happens to cite the line that it stands in. -/
theorem chapter_told :
    (folder (declaring "'page 9'.'line 3'")).readText ["filterbar.toml"] =
      .ok (withNewlines (declaring "'page 9'.'line 3'").toList) ∧
    Toml.parse (withNewlines (declaring "'page 9'.'line 3'").toList) =
      .error (.invalid chapterFault) ∧
    isWritable (3 : Nat) = true ∧
    Text.Cites chapterFault.description.toList ['3'] ∧
    lineNumber? (chapterFault.description ++ " (at line " ++ toString 3 ++ ", column " ++
      toString 19 ++ ")").toList = .ok (some 3) ∧
    lineNumber? ("Invalid value" ++ " (at end of document)").toList = .ok none ∧
    (folder (declaring "'page 9'.'line 3'")).readTable ["filterbar.toml"] =
      .error (.config ⟨.unreadable chapterFault, some 3, some "/filterbar.toml"⟩) := by
  have readable := folder_readText (declaring "'page 9'.'line 3'")
  have writable : isWritable (3 : Nat) = true := by decide +kernel
  have right : ∀ digits, Text.Cites chapterFault.description.toList digits →
      digits.length ≤ longestInteger ∧ numberIn digits = 3 := by
    intro digits own
    obtain rfl := chapterFault_cites.unique own
    decide
  obtain ⟨messages, ends, files, -⟩ := line_told_iff (folder (declaring "'page 9'.'line 3'"))
  refine ⟨readable, parse_chapter, writable, chapterFault_cites,
    (messages chapterFault.description 3 19 writable).mpr right,
    (ends "Invalid value").mpr (Text.lineDigits?_eq_none_iff.mp (by decide)), ?_⟩
  have named : (folder (declaring "'page 9'.'line 3'")).pathText ["filterbar.toml"] =
      "/filterbar.toml" := by decide
  rw [← named]
  have invalid := (read_eq_parse _).trans parse_chapter
  refine (files _ _ _ readable invalid fun n same => ?_).mpr fun digits own => ?_
  · rw [← Option.some.inj same]
    exact writable
  · obtain ⟨short, number⟩ := right digits own
    exact ⟨short, by rw [number]; rfl⟩

def titleFault : Toml.Located :=
  declaredAgain ["line 99"] 11

theorem parse_title : Toml.parse (withNewlines (declaring "'line 99'").toList) =
    .error (.invalid titleFault) :=
  parse_declaring (by decide +kernel) (by decide +kernel)

theorem titleFault_cites : Text.Cites titleFault.description.toList ['9', '9'] :=
  declaredAgain_cites_iff.mpr ⟨[], "line 99".toList, [], rfl, by decide, nofun⟩

/-- A key in the message is taken for the line, be the place another one or the end. -/
theorem title_taken :
    Toml.parse (withNewlines (declaring "'line 99'").toList) = .error (.invalid titleFault) ∧
    (folder (declaring "'line 99'")).readTable ["filterbar.toml"] =
      .error (.config ⟨.unreadable titleFault, some 99, some "/filterbar.toml"⟩) ∧
    titleFault.place.line = some 3 ∧
    lineNumber? "Cannot declare ('line 99',) twice (at line 3, column 11)".toList =
      .ok (some 99) ∧
    lineNumber? "Cannot declare ('line 99',) twice (at end of document)".toList =
      .ok (some 99) := by
  have named : (folder (declaring "'line 99'")).pathText ["filterbar.toml"] =
      "/filterbar.toml" := by decide
  refine ⟨parse_title, ?_, rfl, by decide, by decide⟩
  rw [readTable_of_invalid (folder_readText _) ((read_eq_parse _).trans parse_title), named,
    unreadable_of_cites titleFault_cites]
  rfl

end Surroundings
end SearchBar
