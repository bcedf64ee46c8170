/-! Blank characters and the words of a text.
A text is a list of characters, so every length and position counts characters. -/
namespace SearchBar

abbrev Text := List Char

namespace Text

def isWhiteSpace (c : Char) : Bool :=
  let n := c.toNat
  (0x9 ≤ n && n ≤ 0xd) || n == 0x20 || n == 0x85 || n == 0xa0 || n == 0x1680 ||
    (0x2000 ≤ n && n ≤ 0x200a) || n == 0x2028 || n == 0x2029 || n == 0x202f ||
    n == 0x205f || n == 0x3000

/-- White space and the four information separators. -/
def isBlank (c : Char) : Bool :=
  isWhiteSpace c || (0x1c ≤ c.toNat && c.toNat ≤ 0x1f)

/-- A word that may be empty in front of further words; the empty one is dropped. -/
def closeWord (word : Text) (others : List Text) : List Text :=
  if word.isEmpty then others else word :: others

def splitWord : Text → Text × List Text
  | [] => ([], [])
  | c :: rest =>
    let (word, others) := splitWord rest
    if isBlank c then ([], closeWord word others) else (c :: word, others)

/-- The maximal runs of characters that are not blank, in order. -/
def words (text : Text) : List Text :=
  let (word, others) := splitWord text
  closeWord word others

def unwords (parts : List Text) : Text :=
  [' '].intercalate parts

def trim (text : Text) : Text :=
  ((text.dropWhile isWhiteSpace).reverse.dropWhile isWhiteSpace).reverse

end Text
end SearchBar
