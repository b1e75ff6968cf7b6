import MarkupArena.Reading.Head
/-!
The rules for text in every mode.
-/
namespace MarkupArena.Reading.Builder

def isSpace (c : Char) : Bool := c == ' ' || c == '\n' || c == '\t' || c == '\x0c'

/-- A character of ordinary content; NUL is dropped. -/
def bodyChar (b : Builder) (c : Char) : Builder :=
  if c = '\x00' then b else b.reopenFormatting.addChar c

/-- A character between the parts of a table is held back until the text is complete. -/
def tableChar (b : Builder) (c : Char) : Builder :=
  if b.isIn OpenElement.tableNames then
    { b with
      tableText := if c = '\x00' then [] else [c], returnMode := b.mode, mode := .tableText }
  else b.fosteringDo (bodyChar · c)

/-- In foreign content nothing stands for a NUL character but the replacement character. -/
def foreignChar (b : Builder) (c : Char) : Builder := b.addChar (withoutNul c)

/-- A character under the rules of the mode. One that ends the head or a group of columns is taken
up again in the mode after it. -/
def charIn : Nat → Char → Builder → Builder
  | 0, _, b => b
  | fuel + 1, c, b =>
    let again (b : Builder) : Builder :=
      if b.elements.context.foreign then b.foreignChar c else charIn fuel c b
    match b.mode with
    | .template | .body | .caption | .cell => b.bodyChar c
    | .rawText => b.addChar c
    | .select | .selectInTable => if c = '\x00' then b else b.addChar c
    | .table | .tableBody | .row => b.tableChar c
    | .tableText => if c = '\x00' then b else { b with tableText := c :: b.tableText }
    | .columnGroup =>
      if isSpace c then b.addChar c
      else if b.isIn ["colgroup"] then again (b.pop.withMode .table)
      else b
    | .beforeHead => if isSpace c then b else again (b.openHead [])
    | .head => if isSpace c then b.addChar c else again b.closeHead
    | .afterHead => if isSpace c then b.addChar c else b.openBody.bodyChar c
    | .afterBody => if isSpace c then b.bodyChar c else (b.withMode .body).bodyChar c
    | .frameset => if isSpace c then b.addChar c else b

/-- More than there are modes in a row that a character ends. -/
def charFuel : Nat := 4

/-- A line feed at the start of some elements is dropped. In foreign content a run of NUL characters
becomes one replacement character. -/
def char (b : Builder) (c : Char) : Builder :=
  let skipped := b.skipNewline && c == '\n'
  let repeated := b.afterNul && c == '\x00'
  let b := { b with skipNewline := false, afterNul := c == '\x00' }
  if skipped then b
  else if b.elements.context.foreign then if repeated then b else b.foreignChar c
  else charIn charFuel c b

/-- Puts the text of a table where it belongs: white space stays, other text goes before it. -/
def flushTable (b : Builder) : Builder :=
  if b.mode = .tableText then
    let text := b.tableText.reverse
    let b := { b with tableText := [], mode := b.returnMode }
    if text.all isSpace then text.foldl addChar b
    else text.foldl (fun b c => b.fosteringDo (bodyChar · c)) b
  else b

/-- Ends a run of characters. -/
def endText (b : Builder) : Builder := { b with skipNewline := false, afterNul := false }

/-- A comment needs an element to stand in. In foreign content it leaves the text of a table
alone. -/
def comment (b : Builder) : Builder :=
  if b.elements.innermost?.isNone then b.fail .nothingOpen
  else if b.elements.context.notHtml then b
  else b.flushTable

end MarkupArena.Reading.Builder
