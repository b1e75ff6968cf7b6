import MarkupArena.Reading.Modes
import MarkupArena.Text.Units
/-!
Reading a whole text as the content of a template, and what is asked of the result: the tags at its
top level, whether there is text among them, and all its text.
-/
namespace MarkupArena.Reading

namespace Builder

def take (b : Builder) : Token → Builder
  | .character c => b.char c
  | .start tag => b.endText.startTag tag
  | .finish name => b.endText.endTag name
  | .comment => b.endText.comment
  | .doctype => b.endText.flushTable
  | .overlong => b.fail .overlongReference

def takeAll (b : Builder) (tokens : List Token) : Builder := tokens.foldl take b

def takeText (b : Builder) (text : List Char) : Builder := text.foldl char b

/-- Takes text in which references count. -/
def takeDecoded (b : Builder) (text : List Char) : Builder :=
  match decode? false text with
  | some text => b.takeText text
  | none => b.fail .overlongReference

/-- Takes the text of a raw element and its end tag, after which there is markup again. An end tag
that is cut off is lost. -/
def takeRaw (b : Builder) (references : Bool) (split : List Char × List Char) :
    Builder × List Char :=
  let text := split.1.map withoutNul
  let b := if references then b.takeDecoded text else b.takeText text
  let (tokens, rest) := readEndTag (split.2.drop 2)
  if split.2.isEmpty then (b, []) else ({ b with model := .markup }.takeAll tokens, rest)

/-- Reads on until the text is used up or cannot be read. Every round uses some of it, so its length
bounds their number. -/
def readAll : Nat → Builder → List Char → Builder
  | 0, b, _ => b
  | fuel + 1, b, text =>
    if b.fault.isSome then b
    else
      match text, b.model with
      | [], _ => b
      | _, .plain => b.takeText (text.map withoutNul)
      | _, .raw name references =>
        let (b, rest) := b.takeRaw references (splitRaw name.toList text)
        readAll fuel b rest
      | _, .script =>
        let (b, rest) := b.takeRaw false (splitScript .code text)
        readAll fuel b rest
      | '<' :: rest, .markup =>
        let (tokens, rest) := readMarkup b.elements.context.foreign rest
        readAll fuel (b.takeAll tokens) rest
      | _, .markup =>
        let run := text.takeWhile (· ≠ '<')
        readAll fuel (b.takeDecoded run) (text.drop run.length)

/-- Ends a mode that the end of the text ends, if there is one: what is held back goes where it
belongs, a document gets its head and its body, and open templates are closed. -/
def endMode? (b : Builder) : Option Builder :=
  match b.mode with
  | .rawText => some (b.pop.withMode b.returnMode)
  | .tableText => some b.flushTable
  | .beforeHead => some (b.openHead [])
  | .head => some b.closeHead
  | .afterHead => some b.openBody
  | .afterBody | .frameset => none
  | _ => if b.inTemplate then some b.closeTemplate else none

/-- Ends one mode after the other. -/
def endModes : Nat → Builder → Builder
  | 0, b => b
  | fuel + 1, b =>
    match b.endMode? with
    | some b => endModes fuel b
    | none => b

/-- The content read, every open element being closed. -/
def content (b : Builder) : Except Fault (List Content) :=
  let b := endModes b.fuel b
  match b.fault with
  | some fault => .error fault
  | none => .ok b.draft.content

end Builder

/-- The content of a text, with every line end as a line feed. -/
def read (html : String) : Except Fault (List Content) :=
  let text := normalizeNewlines html.toList
  (Builder.start.readAll text.length text).content

namespace Content

mutual

/-- All text of an item, markup dropped. -/
def textOf : Content → String
  | .text value => value
  | .element _ children => textOfAll children

def textOfAll : List Content → String
  | [] => ""
  | item :: rest => item.textOf ++ textOfAll rest

end

def tag? : Content → Option String
  | element name _ => some name
  | text _ => none

def isVisibleText : Content → Bool
  | element _ _ => false
  | text value => !Text.onlyMarkupSpace value

end Content

structure Summary where
  tagNames : List String
  hasText : Bool
  text : String
  deriving DecidableEq, Repr

/-- What a text contains when it is read as markup. -/
def summarize (html : String) : Except Fault Summary :=
  (read html).map fun content =>
    ⟨Text.distinct (content.filterMap Content.tag?), content.any Content.isVisibleText,
      Content.textOfAll content⟩

/-- Takes markup as it is, with the summary of what it contains. -/
def adopt (html : String) : Except Fault Rendered :=
  (summarize html).map fun summary => ⟨html, summary.tagNames, summary.hasText⟩

end MarkupArena.Reading
