import SearchBar.Text.Printable

/-! Quoted texts, as messages show them.
Apostrophes quote a text; double quotes do where the text holds an apostrophe and no
double quote. The quote in use and the backslash are written with a backslash, and so is
every character that is not printable. -/
namespace SearchBar.Text

def apostrophe : Char := '\x27'

def doubleQuote : Char := '\x22'

def quoteMark (text : Text) : Char :=
  if text.contains apostrophe && !text.contains doubleQuote then doubleQuote else apostrophe

def hexadecimal (width n : Nat) : Text :=
  let digits := Nat.toDigits 16 n
  List.replicate (width - digits.length) '0' ++ digits

/-- A character that is not printable, by the shortest of the three numeric forms. -/
def numericEscape (c : Char) : Text :=
  let n := c.toNat
  if n < 0x100 then '\\' :: 'x' :: hexadecimal 2 n
  else if n < 0x10000 then '\\' :: 'u' :: hexadecimal 4 n
  else '\\' :: 'U' :: hexadecimal 8 n

def escape (mark c : Char) : Text :=
  if c == mark || c == '\\' then ['\\', c]
  else if c == '\n' then ['\\', 'n']
  else if c == '\r' then ['\\', 'r']
  else if c == '\t' then ['\\', 't']
  else if isPrintable c then [c]
  else numericEscape c

def quote (text : Text) : Text :=
  let mark := quoteMark text
  mark :: text.flatMap (escape mark) ++ [mark]

def quoted (text : Text) : String :=
  String.ofList text.quote

def bracketed (first last : String) (pieces : List String) : String :=
  first ++ ", ".intercalate pieces ++ last

def quotedList (texts : List Text) : String :=
  bracketed "[" "]" (texts.map quoted)

end SearchBar.Text
