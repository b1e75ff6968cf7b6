/-!
Escaping of text and attribute values, one replacement pass per special character. The ampersand
goes first, so the ampersands of later replacements are not escaped again.
-/
namespace MarkupArena.Text

/-- Writes `written` for every occurrence of `c`. -/
def replaceEach (c : Char) (written : List Char) (s : List Char) : List Char :=
  s.flatMap fun d => if d = c then written else [d]

def ampersand : List Char := ['&', 'a', 'm', 'p', ';']
def lessThan : List Char := ['&', 'l', 't', ';']
def greaterThan : List Char := ['&', 'g', 't', ';']
def doubleQuote : List Char := ['&', 'q', 'u', 'o', 't', ';']

def escapeTextChars (s : List Char) : List Char :=
  replaceEach '>' greaterThan (replaceEach '<' lessThan (replaceEach '&' ampersand s))

def escapeAttributeChars (s : List Char) : List Char :=
  replaceEach '"' doubleQuote (replaceEach '&' ampersand s)

/-- Escapes text between tags. -/
def escapeText (s : String) : String := String.ofList (escapeTextChars s.toList)

/-- Escapes an attribute value written between double quotes. -/
def escapeAttribute (s : String) : String := String.ofList (escapeAttributeChars s.toList)

end MarkupArena.Text
