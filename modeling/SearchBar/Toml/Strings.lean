import SearchBar.Toml.Fault

namespace SearchBar.Toml

def isSpace (c : Char) : Bool :=
  c == ' ' || c == '\t'

def isSpaceOrNewline (c : Char) : Bool :=
  isSpace c || c == '\n'

def skipSpaces (rest : Text) : Text :=
  rest.dropWhile isSpace

def isIllegal (lines : Bool) (c : Char) : Bool :=
  (c.toNat < 0x20 || c.toNat == 0x7f) && c != '\t' && !(lines && c == '\n')

def hexValue? (c : Char) : Option Nat :=
  if c.isDigit then some (c.toNat - '0'.toNat)
  else if 'a' ≤ c && c ≤ 'f' then some (c.toNat - 'a'.toNat + 10)
  else if 'A' ≤ c && c ≤ 'F' then some (c.toNat - 'A'.toNat + 10)
  else none

def numeralIn (base : Nat) (digits : List Nat) : Nat :=
  digits.foldl (fun value digit => base * value + digit) 0

def hexCharacter (width : Nat) : Reader Char := fun rest =>
  let digits := (rest.take width).filterMap hexValue?
  if digits.length != width then fail .badHex rest
  else
    let n := numeralIn 16 digits
    if n < 0xd800 || (0xdfff < n && n < 0x110000) then .ok (Char.ofNat n, rest.drop width)
    else fail .notScalar (rest.drop width)

def simpleEscape? (c : Char) : Option Char :=
  if c == 'b' then some '\x08'
  else if c == 't' then some '\t'
  else if c == 'n' then some '\n'
  else if c == 'f' then some '\x0c'
  else if c == 'r' then some '\r'
  else if c == 'e' then some '\x1b'
  else if c == '\\' || c == Text.doubleQuote then some c
  else none

/-- Blanks at a line's end behind a backslash, and the blanks and newlines after them. -/
def lineJoin (rest : Text) : Except Stop Text :=
  match skipSpaces rest with
  | [] => .ok []
  | c :: more =>
    if c == '\n' then .ok (more.dropWhile isSpaceOrNewline) else fail .badEscape (c :: more)

def escapeSequence (lines : Bool) : Reader Text
  | [] => fail .badEscape []
  | c :: rest =>
    if lines && isSpaceOrNewline c then
      (lineJoin (if c == '\n' then c :: rest else rest)).map fun more => ([], more)
    else if c == 'x' then (hexCharacter 2 rest).map fun (d, more) => ([d], more)
    else if c == 'u' then (hexCharacter 4 rest).map fun (d, more) => ([d], more)
    else if c == 'U' then (hexCharacter 8 rest).map fun (d, more) => ([d], more)
    else
      match simpleEscape? c with
      | some d => .ok ([d], rest)
      | none => fail .badEscape rest

def tripleQuote : Text := List.replicate 3 Text.doubleQuote

def tripleApostrophe : Text := List.replicate 3 Text.apostrophe

def basicBody (lines : Bool) : Nat → Reader Text
  | 0, rest => fail .unterminated rest
  | _ + 1, [] => fail .unterminated []
  | fuel + 1, c :: rest =>
    let close := if lines then tripleQuote else [Text.doubleQuote]
    if close.isPrefixOf (c :: rest) then .ok ([], (c :: rest).drop close.length)
    else if c == '\\' then do
      let (piece, more) ← escapeSequence lines rest
      let (body, rest) ← basicBody lines fuel more
      return (piece ++ body, rest)
    else if isIllegal lines c then fail (.illegal c) (c :: rest)
    else do
      let (body, rest) ← basicBody lines fuel rest
      return (c :: body, rest)

def basicLine : Reader Text := fun rest =>
  basicBody false (rest.length + 1) rest

def cutAt? (delimiter : Text) : Text → Option (Text × Text)
  | [] => none
  | c :: rest =>
    if delimiter.isPrefixOf (c :: rest) then some ([], (c :: rest).drop delimiter.length)
    else (cutAt? delimiter rest).map fun (before, behind) => (c :: before, behind)

def literalBody (lines : Bool) (delimiter : Text) : Reader Text := fun rest =>
  match cutAt? delimiter rest with
  | none => fail (.unclosed delimiter) []
  | some (body, behind) =>
    match body.find? (isIllegal lines) with
    | some c => fail (.illegalLiteral c) (rest.dropWhile fun d => !isIllegal lines d)
    | none => .ok (body, behind)

def literalLine : Reader Text :=
  literalBody false [Text.apostrophe]

/-- One or two quotes may stand right before the closing three; they belong to the string. -/
def extraQuotes (mark : Char) (body rest : Text) : Text × Text :=
  let extra := (rest.take 2).takeWhile (· == mark)
  (body ++ extra, rest.drop extra.length)

/-- A string on several lines, from behind its opening quotes. A newline there is left out. -/
def linesString (mark : Char) (body : Reader Text) : Reader Text := fun rest => do
  let start := if rest.head? == some '\n' then rest.drop 1 else rest
  let (text, more) ← body start
  return extraQuotes mark text more

def basicLines : Reader Text :=
  linesString Text.doubleQuote fun rest => basicBody true (rest.length + 1) rest

def literalLines : Reader Text :=
  linesString Text.apostrophe (literalBody true tripleApostrophe)

end SearchBar.Toml
