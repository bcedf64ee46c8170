import SearchBar.Definition.Basic

namespace SearchBar

inductive ScanState where
  | resolved
  | complete
  | begun
  | unmatched
  | overmatched
  deriving DecidableEq, Repr

/-- A scan's end: the part it came to and where in the text that part starts. For a
complete scan this is the last part. -/
structure Scan where
  state : ScanState
  part : Nat
  position : Nat
  deriving DecidableEq, Repr

def Scan.isResolved (s : Scan) : Bool :=
  s.state == .resolved || s.state == .complete

/-- The scan of what is left, from the part with number `part` at `position`; the part
before it started at `last`. -/
def scanFrom (part position last : Nat) : List Part → Text → Scan
  | [], [] => ⟨.complete, part - 1, last⟩
  | [], _ :: _ => ⟨.overmatched, part, position⟩
  | _ :: _, [] => ⟨.resolved, part, position⟩
  | p :: parts, c :: rest =>
    match p.consume? (c :: rest) with
    | some n => scanFrom (part + 1) (position + n) position parts ((c :: rest).drop n)
    | none => ⟨if p.isBegun (c :: rest) then .begun else .unmatched, part, position⟩

def Definition.scan (d : Definition) (text : Text) : Scan :=
  scanFrom 0 0 0 d.grammar text

end SearchBar
