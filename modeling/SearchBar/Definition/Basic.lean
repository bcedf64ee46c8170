import SearchBar.Part.Basic
import SearchBar.Value.Display

/-! Filter definitions: a grammar with a name, and the filters built from matching texts.
Definitions are told apart by their tags alone; two that agree in everything else are
different filters. -/
namespace SearchBar

structure FactoryFault where
  message : String
  deriving DecidableEq, Repr

structure Custom where
  value : Value
  shown : String

abbrev Factory := Text → Except FactoryFault Custom

structure Definition where
  /-- Which definition it is. -/
  tag : Nat
  id : String
  name : String
  grammar : List Part
  description : Option String
  source : Option String
  factory : Option Factory
  grammar_ne_nil : grammar ≠ []
  grammar_valid : ∀ part ∈ grammar, part.Valid

inductive ParseFault where
  | mismatch (text : Text) (id : String)
  | integer (fault : Text.IntegerFault)
  deriving DecidableEq, Repr

def ParseFault.message : ParseFault → String
  | mismatch text id => text.quoted ++ " does not match filter '" ++ id ++ "'"
  | integer .malformed => "not a whole number"
  | integer .tooLong => "a number has at most 4300 digits"

inductive Filter where
  | draft (text : Text)
  | finished (definition : Definition) (text : Text)
  | custom (made : Custom)

/-- The pieces that the parts take one after the other, if they take the whole text. -/
def split : List Part → Text → Option (List Text)
  | [], [] => some []
  | [], _ :: _ => none
  | part :: parts, rest =>
    match part.consume? rest with
    | none => none
    | some n => (split parts (rest.drop n)).map (rest.take n :: ·)

def captures : List Part → List Text → Except ParseFault (List Capture)
  | part :: parts, piece :: pieces =>
    match part.capture piece with
    | .error fault => .error (.integer fault)
    | .ok value => (captures parts pieces).map (value :: ·)
  | _, _ => .ok []

namespace Definition

/-- The same definition, whatever the two say. -/
def same (a b : Definition) : Bool :=
  a.tag == b.tag

def pieces? (d : Definition) (text : Text) : Option (List Text) :=
  split d.grammar text

def accepts (d : Definition) (text : Text) : Bool :=
  (d.pieces? text).isSome

def parse (d : Definition) (text : Text) : Except ParseFault (List Capture) :=
  match d.pieces? text with
  | none => .error (.mismatch text d.id)
  | some pieces => captures d.grammar pieces

/-- The filter for a text, which is trusted to match. -/
def build (d : Definition) (text : Text) : Except FactoryFault Filter :=
  match d.factory with
  | some factory => (factory text).map .custom
  | none => .ok (.finished d text)

def withoutRepeats (definitions : List Definition) : List Definition :=
  definitions.foldl
    (fun seen d => if seen.any (·.same d) then seen else seen ++ [d]) []

end Definition

def Filter.shown : Filter → String
  | draft text => String.ofList text
  | finished _ text => String.ofList text
  | custom made => made.shown

end SearchBar
