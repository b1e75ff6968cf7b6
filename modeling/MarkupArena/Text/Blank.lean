/-!
Two classes of white space: the five ASCII characters that markup skips, and the wider class that
trimming a line of text removes.
-/
namespace MarkupArena.Text

/-- Tab, line feed, form feed, carriage return and space. -/
def isMarkupSpace (c : Char) : Bool :=
  c == '\t' || c == '\n' || c == '\x0c' || c == '\r' || c == ' '

def onlyMarkupSpace (s : String) : Bool := s.toList.all isMarkupSpace

/-- Line ends, every character of the class of space separators, tabs and the byte order mark. -/
def isBlank (c : Char) : Bool :=
  let n := c.toNat
  (9 ≤ n && n ≤ 13) || n == 0x20 || n == 0xA0 || n == 0x1680 || (0x2000 ≤ n && n ≤ 0x200A) ||
    n == 0x2028 || n == 0x2029 || n == 0x202F || n == 0x205F || n == 0x3000 || n == 0xFEFF

/-- Drops blanks from both ends. -/
def trim (s : List Char) : List Char :=
  ((s.dropWhile isBlank).reverse.dropWhile isBlank).reverse

/-- Whether `part` occurs in `whole`. -/
def occursIn (part : List Char) : List Char → Bool
  | [] => part.isEmpty
  | c :: rest => part.isPrefixOf (c :: rest) || occursIn part rest

/-- Splits at every occurrence of a separator character. -/
def splitAt (separator : Char) : List Char → List (List Char)
  | [] => [[]]
  | c :: rest =>
    let lines := splitAt separator rest
    if c = separator then [] :: lines
    else match lines with
      | [] => [[c]]
      | line :: more => (c :: line) :: more

end MarkupArena.Text
