import SearchBar.Text.Quoted

namespace SearchBar.Toml

abbrev Key := List String

def Key.text : Key → String
  | [part] => "(" ++ Text.quoted part.toList ++ ",)"
  | parts => Text.bracketed "(" ")" (parts.map fun part => Text.quoted part.toList)

inductive Fault where
  | badStatement
  | noLineEnd
  | badKey
  | noEquals
  | noTableEnd
  | noTableArrayEnd
  | declaredTwice (key : Key)
  | redefined (key : Key)
  | immutable (key : Key)
  | overwritten
  | duplicateKey (name : String)
  | unclosedArray
  | unclosedTable
  | badValue
  | badDate
  | badEscape
  | badHex
  | notScalar
  | unterminated
  | unclosed (delimiter : Text)
  | illegal (c : Char)
  | illegalLiteral (c : Char)
  deriving DecidableEq, Repr

def Fault.message : Fault → String
  | badStatement => "Invalid statement"
  | noLineEnd => "Expected newline or end of document after a statement"
  | badKey => "Invalid initial character for a key part"
  | noEquals => "Expected '=' after a key in a key/value pair"
  | noTableEnd => "Expected ']' at the end of a table declaration"
  | noTableArrayEnd => "Expected ']]' at the end of an array declaration"
  | declaredTwice key => "Cannot declare " ++ key.text ++ " twice"
  | redefined key => "Cannot redefine namespace " ++ key.text
  | immutable key => "Cannot mutate immutable namespace " ++ key.text
  | overwritten => "Cannot overwrite a value"
  | duplicateKey name => "Duplicate inline table key " ++ Text.quoted name.toList
  | unclosedArray => "Unclosed array"
  | unclosedTable => "Unclosed inline table"
  | badValue => "Invalid value"
  | badDate => "Invalid date or datetime"
  | badEscape => "Unescaped '\\' in a string"
  | badHex => "Invalid hex value"
  | notScalar => "Escaped character is not a Unicode scalar value"
  | unterminated => "Unterminated string"
  | unclosed delimiter => "Expected " ++ Text.quoted delimiter
  | illegal c => "Illegal character " ++ Text.quoted [c]
  | illegalLiteral c => "Found invalid character " ++ Text.quoted [c]

inductive Stop where
  /-- A fault, and what is left of the document from where it stands. -/
  | fault (fault : Fault) (rest : Text)
  /-- A decimal number of more than 4300 digits. -/
  | longInteger
  | tooDeep
  deriving DecidableEq, Repr

abbrev Reader (α : Type) := Text → Except Stop (α × Text)

def fail {α : Type} (fault : Fault) (rest : Text) : Except Stop α :=
  .error (.fault fault rest)

inductive Place where
  | documentEnd
  | spot (line column : Nat)
  deriving DecidableEq, Repr

/-- The place that a part of a document at its end starts at. -/
def place (document rest : Text) : Place :=
  if rest.isEmpty then .documentEnd
  else
    let before := document.take (document.length - rest.length)
    .spot (before.count '\n' + 1) ((before.reverse.takeWhile (· != '\n')).length + 1)

def Place.text : Place → String
  | documentEnd => "end of document"
  | spot line column => "line " ++ toString line ++ ", column " ++ toString column

structure Located where
  description : String
  place : Place
  deriving DecidableEq, Repr

def Located.message (l : Located) : String :=
  l.description ++ " (at " ++ l.place.text ++ ")"

end SearchBar.Toml
