import SearchBar.Text.Integer

/-! The line number that a message names: the digits after the first "line " that has any.
Upper and lower case count the same, and a Turkish i counts for an i. -/
namespace SearchBar.Text

/-- The letters that count for the one in small case. -/
def sameLetter (small c : Char) : Bool :=
  c == small || c == small.toUpper ||
    (small == 'i' && (c == Char.ofNat 0x131 || c == Char.ofNat 0x130))

def afterLine? : Text → Option Text
  | l :: i :: n :: e :: ' ' :: rest =>
    if sameLetter 'l' l && sameLetter 'i' i && sameLetter 'n' n && sameLetter 'e' e then
      some rest
    else none
  | _ => none

/-- The digits after the first "line " that has any. -/
def lineDigits? : Text → Option Text
  | [] => none
  | c :: rest =>
    match ((afterLine? (c :: rest)).getD []).takeWhile fun d => (digitValue? d).isSome with
    | [] => lineDigits? rest
    | digits => some digits

def lineNumber? (message : Text) : Except IntegerFault (Option Int) :=
  match lineDigits? message with
  | none => .ok none
  | some digits => (readInteger digits).map some

end SearchBar.Text
