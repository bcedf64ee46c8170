import SearchBar.Definition.Basic
import SearchBar.Validation.Integer

namespace SearchBar

namespace Validation

abbrev ValidPart := { part : Part // part.Valid }

def literalPart (t : Table) : Checked ValidPart :=
  (required t "text" someText).map fun text => ⟨.literal text.1, text.2⟩

def distinctOptions (choices : List Text) (nonempty : choices ≠ []) : Checked ValidPart :=
  if each : ∀ choice ∈ choices, choice ≠ [] then
    if distinct : choices.Nodup then .ok ⟨.options choices, nonempty, each, distinct⟩
    else .fail (.repeatedOption choices)
  else .fail .emptyOption

def optionsPart (t : Table) : Checked ValidPart :=
  required t "options" fun value =>
    match items (fun item => (anyText item).map String.toList) value with
    | .error reports => .error reports
    | .ok choices => distinctOptions choices.1 choices.2

def numberName (t : Table) : Checked { name : Text // name ≠ [] } :=
  optional t "name" ⟨['n', 'u', 'm', 'b', 'e', 'r'], by simp⟩ someText

def numberPart (t : Table) : Checked ValidPart :=
  (numberName t).map fun name => ⟨.number name.1, name.2⟩

def digitsPart (t : Table) : Checked ValidPart :=
  ((required t "digits" positive).both (numberName t)).map fun (count, name) =>
    ⟨.digits count.1 name.1, count.2, name.2⟩

def part : Value → Checked ValidPart
  | .table t =>
    match Table.get? t "kind" with
    | none => .fail .noKind
    | some (.text "literal") => (literalPart t).under (.field "literal")
    | some (.text "options") => (optionsPart t).under (.field "options")
    | some (.text "number") => (numberPart t).under (.field "number")
    | some (.text "digits") => (digitsPart t).under (.field "digits")
    | some kind => .fail (.unknownKind kind.shownOrKind)
  | _ => .fail .notTable

/-- A factory is given beside the table; in the table itself only `null` passes for one. -/
def factoryField (t : Table) : Option Factory → Checked (Option Factory)
  | some factory => .ok (some factory)
  | none =>
    optional t "factory" none fun
      | .null => .ok none
      | _ => .fail .notCallable

def definition (tag : Nat) (t : Table) (factory : Option Factory) : Checked Definition :=
  let id := required t "id" someText
  let name := required t "name" anyText
  let grammar := required t "grammar" (items part)
  let description := optional t "description" none textOrNull
  let source := optional t "source" none textOrNull
  let head := (id.both name).both grammar
  let tail := (description.both source).both (factoryField t factory)
  (head.both tail).map fun (((id, name), grammar), ((description, source), factory)) =>
    { tag
      id := String.ofList id.1
      name
      grammar := grammar.1.map Subtype.val
      description
      source
      factory
      grammar_ne_nil := fun h => grammar.2 (List.map_eq_nil_iff.1 h)
      grammar_valid := by
        intro p hp
        obtain ⟨valid, _, rfl⟩ := List.mem_map.1 hp
        exact valid.2 }

end Validation

/-- What reads a definition from a table, with a tag to tell it from others that say the same. -/
class DefinitionReader where
  read : Nat → Table → Validation.Checked Definition

instance : DefinitionReader := ⟨fun tag t => Validation.definition tag t none⟩

end SearchBar
