import MarkupArena.Reading.Tag
/-!
Tokens of markup, and how they are split off a text: tags, comments, and the text of elements whose
content is not markup.
-/
namespace MarkupArena.Reading

inductive Token where
  | start (tag : Tag)
  | finish (name : String)
  | character (c : Char)
  | comment
  | doctype
  /-- A tag with a reference that has no value. -/
  | overlong
  deriving DecidableEq, Repr

def isLetter (c : Char) : Bool := c.isAlpha

/-- Where in a comment the reader stands; two dashes and an angle bracket close it. -/
inductive CommentPlace where
  | opening
  | openingDash
  | body
  | dash
  | dashes
  | bang
  deriving DecidableEq, Repr

/-- The place after one more character, or `none` when it closes the comment. -/
def CommentPlace.next : CommentPlace → Char → Option CommentPlace
  | opening, c => if c = '>' then none else some (if c = '-' then openingDash else body)
  | openingDash, c => if c = '>' then none else some (if c = '-' then dashes else body)
  | body, c => some (if c = '-' then dash else body)
  | dash, c => some (if c = '-' then dashes else body)
  | dashes, c =>
    if c = '>' then none
    else some (if c = '-' then dashes else if c = '!' then bang else body)
  | bang, c => if c = '>' then none else some (if c = '-' then dash else body)

/-- The text after a comment whose opening was read. -/
def afterComment : CommentPlace → List Char → List Char
  | _, [] => []
  | place, c :: rest =>
    match place.next c with
    | some place => afterComment place rest
    | none => rest

/-- The text after the next angle bracket. -/
def afterBracket (text : List Char) : List Char := (text.dropWhile (· ≠ '>')).drop 1

/-- Whether a text starts with a word in any case. -/
def startsWith (word text : List Char) : Bool :=
  word.isPrefixOf ((text.take word.length).map Char.toLower)

/-- Splits at the mark that closes a CDATA section, which goes to neither side. -/
def splitSection : List Char → List Char × List Char
  | ']' :: ']' :: '>' :: rest => ([], rest)
  | [] => ([], [])
  | c :: rest => let (text, after) := splitSection rest; (c :: text, after)

/-- What follows `<!`. CDATA sections exist only in foreign content. -/
def readDeclaration (foreign : Bool) (text : List Char) : List Token × List Char :=
  match text with
  | '-' :: '-' :: rest => ([.comment], afterComment .opening rest)
  | _ =>
    if startsWith ['d', 'o', 'c', 't', 'y', 'p', 'e'] text then ([.doctype], afterBracket text)
    else if foreign && ['[', 'C', 'D', 'A', 'T', 'A', '['].isPrefixOf text then
      let (content, rest) := splitSection (text.drop 7)
      (content.map .character, rest)
    else ([.comment], afterBracket text)

/-- What a tag is read as. One that is cut off is lost. -/
def tokensOf (read : Tag → Token) (t : OpenTag) : List Token :=
  if t.overlong then [.overlong] else if t.place = .closed then [read t.tag] else []

/-- What follows `</`. -/
def readEndTag (text : List Char) : List Token × List Char :=
  match text with
  | [] => ([.character '<', .character '/'], [])
  | c :: rest =>
    if isLetter c then
      let (tag, rest) := (OpenTag.start c).read rest
      (tokensOf (fun tag => .finish tag.name) tag, rest)
    else if c = '>' then ([], rest)
    else ([.comment], afterBracket text)

/-- What follows `<` in markup, and the text after it. -/
def readMarkup (foreign : Bool) (text : List Char) : List Token × List Char :=
  match text with
  | [] => ([.character '<'], [])
  | c :: rest =>
    if isLetter c then
      let (tag, rest) := (OpenTag.start c).read rest
      (tokensOf .start tag, rest)
    else if c = '/' then readEndTag rest
    else if c = '!' then readDeclaration foreign rest
    else if c = '?' then ([.comment], afterBracket text)
    else ([.character '<'], text)

/-- Whether a tag name ends before a text. -/
def nameEnds : List Char → Bool
  | [] => false
  | c :: _ => Text.isMarkupSpace c || c == '/' || c == '>'

/-- Whether a text starts with `lead` and a whole tag name. -/
def startsWithTag (lead name text : List Char) : Bool :=
  startsWith (lead ++ name) text && nameEnds (text.drop (lead.length + name.length))

/-- Splits before the end tag of a name. -/
def splitRaw (name : List Char) : List Char → List Char × List Char
  | [] => ([], [])
  | c :: rest =>
    if startsWithTag ['<', '/'] name (c :: rest) then ([], c :: rest)
    else let (text, after) := splitRaw name rest; (c :: text, after)

/-- Where in a script the reader stands. Within a comment, whose dashes are counted, a nested start
tag hides the next end tag. -/
inductive ScriptPlace where
  | code
  | comment (dashes : Nat)
  | nested (dashes : Nat)
  deriving DecidableEq, Repr

def scriptName : List Char := ['s', 'c', 'r', 'i', 'p', 't']

/-- The place after the first character of a text. -/
def ScriptPlace.next (place : ScriptPlace) (c : Char) (text : List Char) : ScriptPlace :=
  match place with
  | code => if ['<', '!', '-', '-'].isPrefixOf text then comment 0 else code
  | comment dashes =>
    if c = '-' then comment (min 2 (dashes + 1))
    else if c = '>' ∧ dashes = 2 then code
    else if startsWithTag ['<'] scriptName text then nested 0
    else comment 0
  | nested dashes =>
    if c = '-' then nested (min 2 (dashes + 1))
    else if c = '>' ∧ dashes = 2 then code
    else if startsWithTag ['<', '/'] scriptName text then comment 0
    else nested 0

def ScriptPlace.hidesEnd : ScriptPlace → Bool
  | nested _ => true
  | _ => false

/-- Splits before the end tag of a script. -/
def splitScript : ScriptPlace → List Char → List Char × List Char
  | _, [] => ([], [])
  | place, c :: rest =>
    if !place.hidesEnd && startsWithTag ['<', '/'] scriptName (c :: rest) then ([], c :: rest)
    else
      let (text, after) := splitScript (place.next c (c :: rest)) rest
      (c :: text, after)

end MarkupArena.Reading
