import SearchBar.Toml.Values

namespace SearchBar

namespace Toml

structure Progress where
  data : Table
  header : Key
  /-- Keys whose tables must not be declared or reopened by dotted keys. -/
  declared : List Key
  /-- Keys whose values take no further entries. -/
  closed : List Key
  /-- Keys opened by dotted keys, which are declared from the next header on. -/
  opened : List Key

def Progress.start : Progress :=
  ⟨[], [], [], [], []⟩

namespace Progress

/-- The first key on the way to an entry that a header has declared, if there is one. -/
def reopened? (p : Progress) (name : Key) : Option Key :=
  (((List.range name.length).drop 1).map fun n => p.header ++ name.take n).find?
    p.declared.contains

def entry (p : Progress) (name : Key) (v : Value) : Except Fault Progress :=
  match p.reopened? name with
  | some k => .error (.redefined k)
  | none =>
    let full := p.header ++ name
    let parent := full.dropLast
    let opened := ((List.range name.length).drop 1).map fun n => p.header ++ name.take n
    if coveredBy p.closed parent then .error (.immutable parent)
    else do
      let stem := name.getLastD ""
      let data ← changeAt true (addKey .overwritten stem v) parent p.data
      return { p with
        data
        opened := opened ++ p.opened
        closed := if isContainer v then full :: p.closed else p.closed }

def endSection (p : Progress) : Progress :=
  { p with declared := p.opened ++ p.declared, opened := [] }

def declare (p : Progress) (k : Key) : Except Fault Progress :=
  if p.declared.contains k || coveredBy p.closed k then .error (.declaredTwice k)
  else do
    let data ← changeAt true .ok k p.data
    return { p with data, header := k, declared := k :: p.declared }

def appendTable (name : String) (t : Table) : Except Fault Table :=
  match t.get? name with
  | none => .ok (t.put name (.array [.table []]))
  | some (.array items) => .ok (t.put name (.array (items ++ [.table []])))
  | some _ => .error .overwritten

/-- The document behind the header of a table in an array. What was declared inside the
table before it is free again. -/
def declareItem (p : Progress) (k : Key) : Except Fault Progress :=
  if coveredBy p.closed k then .error (.immutable k)
  else do
    let data ← changeAt true (appendTable (k.getLastD "")) k.dropLast p.data
    return { p with
      data
      header := k
      declared := k :: p.declared.filter fun d => !k.isPrefixOf d
      closed := p.closed.filter fun d => !k.isPrefixOf d }

end Progress

def entryLine (p : Progress) (rest : Text) : Except Stop (Progress × Text) := do
  let (name, rest) ← key rest
  match rest with
  | '=' :: more => do
    let more := skipSpaces more
    let (v, rest) ← value (2 * more.length + 2) 0 more
    let p ← standing rest (p.entry name v)
    return (p, rest)
  | rest => fail .noEquals rest

def tableLine (p : Progress) (rest : Text) : Except Stop (Progress × Text) := do
  let (k, rest) ← key (skipSpaces rest)
  let p ← standing rest (p.endSection.declare k)
  match rest with
  | ']' :: more => return (p, more)
  | rest => fail .noTableEnd rest

def tableArrayLine (p : Progress) (rest : Text) : Except Stop (Progress × Text) := do
  let (k, rest) ← key (skipSpaces rest)
  let p ← standing rest (p.endSection.declareItem k)
  match rest with
  | ']' :: ']' :: more => return (p, more)
  | rest => fail .noTableArrayEnd rest

def statement (p : Progress) (rest : Text) : Except Stop (Progress × Text) :=
  match rest with
  | '[' :: '[' :: more => tableArrayLine p more
  | '[' :: more => tableLine p more
  | c :: _ =>
    if startsKey c then entryLine p rest
    else if c == '#' || c == '\n' then .ok (p, rest)
    else fail .badStatement rest
  | [] => .ok (p, [])

/-- The statements of a text, in `fuel` steps at most: on each line one at most, then blanks
and a comment. -/
def statements : Nat → Progress → Text → Except Stop Progress
  | 0, _, rest => fail .badStatement rest
  | fuel + 1, p, rest =>
    match skipSpaces rest with
    | [] => .ok p
    | c :: more => do
      let (p, rest) ← statement p (c :: more)
      let rest ← skipComment (skipSpaces rest)
      match rest with
      | [] => return p
      | '\n' :: more => statements fuel p more
      | rest => fail .noLineEnd rest

inductive Unreadable where
  | invalid (what : Located)
  | longInteger
  | tooDeep
  deriving DecidableEq, Repr

def parse (document : Text) : Except Unreadable Table :=
  match statements (document.length + 1) .start document with
  | .ok p => .ok p.data
  | .error (.fault fault rest) => .error (.invalid ⟨fault.message, place document rest⟩)
  | .error .longInteger => .error .longInteger
  | .error .tooDeep => .error .tooDeep

end Toml

/-- What reads a table from a document. -/
class DocumentReader where
  read : Text → Except Toml.Unreadable Table

instance : DocumentReader := ⟨Toml.parse⟩

end SearchBar
