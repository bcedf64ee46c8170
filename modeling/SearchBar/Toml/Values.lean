import SearchBar.Toml.Scalars

namespace SearchBar.Toml

def isBareKeyCharacter (c : Char) : Bool :=
  c.isAlphanum || c == '-' || c == '_'

def startsKey (c : Char) : Bool :=
  isBareKeyCharacter c || c == Text.doubleQuote || c == Text.apostrophe

def keyPart : Reader String
  | [] => fail .badKey []
  | c :: rest =>
    if isBareKeyCharacter c then
      let name := (c :: rest).takeWhile isBareKeyCharacter
      .ok (String.ofList name, (c :: rest).drop name.length)
    else if c == Text.apostrophe then
      (literalLine rest).map fun (name, more) => (String.ofList name, more)
    else if c == Text.doubleQuote then
      (basicLine rest).map fun (name, more) => (String.ofList name, more)
    else fail .badKey (c :: rest)

/-- The parts of a key, `room` of them at most, and the blanks behind it. -/
def keyParts : Nat → Reader Key
  | 0, rest => do
    let _ ← keyPart rest
    .error .tooDeep
  | room + 1, rest => do
    let (name, rest) ← keyPart rest
    match skipSpaces rest with
    | '.' :: more => do
      let (names, rest) ← keyParts room (skipSpaces more)
      return (name :: names, rest)
    | rest => return ([name], rest)

def mostKeyParts : Nat := 1000

def key : Reader Key :=
  keyParts mostKeyParts

def skipComment : Text → Except Stop Text
  | '#' :: rest =>
    let comment := rest.takeWhile (· != '\n')
    match comment.find? (isIllegal false) with
    | some c => fail (.illegalLiteral c) (rest.dropWhile fun d => !isIllegal false d)
    | none => .ok (rest.drop comment.length)
  | rest => .ok rest

def skipFiller : Nat → Text → Except Stop Text
  | 0, rest => .ok rest
  | fuel + 1, rest =>
    match rest.dropWhile isSpaceOrNewline with
    | '#' :: more => do skipFiller fuel (← skipComment ('#' :: more))
    | more => .ok more

def filler (rest : Text) : Except Stop Text :=
  skipFiller (rest.length + 1) rest

/-- The table after a change to the one at a path. Tables missing on the way are made; an
array on the way stands for its last item where `arrays` says so. -/
def changeAt (arrays : Bool) (change : Table → Except Fault Table) :
    Key → Table → Except Fault Table
  | [], t => change t
  | k :: path, t =>
    match t.get? k with
    | none => do return t.put k (.table (← changeAt arrays change path []))
    | some (.table inner) => do return t.put k (.table (← changeAt arrays change path inner))
    | some (.array items) =>
      match arrays, items.getLast? with
      | true, some (.table inner) => do
        let changed ← changeAt arrays change path inner
        return t.put k (.array (items.dropLast ++ [.table changed]))
      | _, _ => .error .overwritten
    | some _ => .error .overwritten

def addKey (taken : Fault) (name : String) (value : Value) (t : Table) : Except Fault Table :=
  if (t.get? name).isSome then .error taken else .ok (t.put name value)

def isContainer : Value → Bool
  | .array _ | .table _ => true
  | _ => false

def coveredBy (keys : List Key) (key : Key) : Bool :=
  keys.any (·.isPrefixOf key)

def addInline (closed : List Key) (key : Key) (value : Value) (t : Table) :
    Except Fault Table :=
  if coveredBy closed key then .error (.immutable key)
  else
    let stem := key.getLastD ""
    changeAt false (addKey (.duplicateKey stem) stem value) key.dropLast t

def standing {α : Type} (rest : Text) : Except Fault α → Except Stop α
  | .ok a => .ok a
  | .error fault => .error (.fault fault rest)

/-- So many levels of arrays and inline tables may lie around a value. -/
def mostNesting : Nat := 400

mutual

/-- A value, in `fuel` steps at most; `depth` levels lie around it. -/
def value (fuel depth : Nat) : Reader Value := fun rest =>
  match fuel with
  | 0 => fail .badValue rest
  | fuel + 1 =>
    if mostNesting < depth then .error .tooDeep
    else
      match rest with
      | [] => fail .badValue []
      | c :: more =>
        if tripleQuote.isPrefixOf rest then
          (basicLines (rest.drop 3)).map fun (t, rest) => (.text (String.ofList t), rest)
        else if c == Text.doubleQuote then
          (basicLine more).map fun (t, rest) => (.text (String.ofList t), rest)
        else if tripleApostrophe.isPrefixOf rest then
          (literalLines (rest.drop 3)).map fun (t, rest) => (.text (String.ofList t), rest)
        else if c == Text.apostrophe then
          (literalLine more).map fun (t, rest) => (.text (String.ofList t), rest)
        else if "true".toList.isPrefixOf rest then .ok (.bool true, rest.drop 4)
        else if "false".toList.isPrefixOf rest then .ok (.bool false, rest.drop 5)
        else if c == '[' then do
          let start ← filler more
          match start with
          | ']' :: rest => return (.array [], rest)
          | start => do
            let (items, rest) ← arrayItems fuel (depth + 1) start
            return (.array items, rest)
        else if c == '\x7b' then do
          let start ← filler more
          match start with
          | '\x7d' :: rest => return (.table [], rest)
          | start => do
            let (entries, rest) ← inlineEntries fuel (depth + 1) [] [] start
            return (.table entries, rest)
        else scalar rest

def arrayItems (fuel depth : Nat) : Reader (List Value) := fun rest =>
  match fuel with
  | 0 => fail .unclosedArray rest
  | fuel + 1 => do
    let (item, rest) ← value fuel depth rest
    let rest ← filler rest
    match rest with
    | ']' :: more => return ([item], more)
    | ',' :: more => do
      let more ← filler more
      match more with
      | ']' :: more => return ([item], more)
      | more => do
        let (items, rest) ← arrayItems fuel depth more
        return (item :: items, rest)
    | rest => fail .unclosedArray rest

def inlineEntries (fuel depth : Nat) (closed : List Key) (before : Table) :
    Reader Table := fun rest =>
  match fuel with
  | 0 => fail .unclosedTable rest
  | fuel + 1 => do
    let (name, rest) ← key rest
    match rest with
    | '=' :: more => do
      let (v, rest) ← value fuel depth (skipSpaces more)
      let entries ← standing rest (addInline closed name v before)
      let rest ← filler rest
      match rest with
      | '\x7d' :: more => return (entries, more)
      | ',' :: more => do
        let closed := if isContainer v then name :: closed else closed
        let more ← filler more
        match more with
        | '\x7d' :: more => return (entries, more)
        | more => inlineEntries fuel depth closed entries more
      | rest => fail .unclosedTable rest
    | rest => fail .noEquals rest

end

end SearchBar.Toml
