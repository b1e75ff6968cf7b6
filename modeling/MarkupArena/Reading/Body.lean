import MarkupArena.Reading.Formatting
/-!
The rules for tags in ordinary content, which the other modes fall back on.
-/
namespace MarkupArena.Reading.Builder

def headNames : List String :=
  ["base", "basefont", "bgsound", "link", "meta", "noframes", "script", "style", "template",
    "title"]

/-- Tags that mean nothing here because their place is elsewhere. -/
def misplacedNames : List String :=
  ["body", "caption", "col", "colgroup", "frame", "frameset", "head", "html", "tbody", "td",
    "tfoot", "th", "thead", "tr"]

def blockNames : List String :=
  ["address", "article", "aside", "blockquote", "center", "details", "dialog", "dir", "div", "dl",
    "fieldset", "figcaption", "figure", "footer", "header", "hgroup", "main", "menu", "nav", "ol",
    "p", "search", "section", "summary", "ul"]

def headingNames : List String := ["h1", "h2", "h3", "h4", "h5", "h6"]

def formattingNames : List String :=
  ["a", "b", "big", "code", "em", "font", "i", "nobr", "s", "small", "strike", "strong", "tt", "u"]

def objectNames : List String := ["applet", "marquee", "object"]

def voidNames : List String := ["area", "br", "embed", "img", "input", "keygen", "wbr"]

def plainVoidNames : List String := ["param", "source", "track"]

/-- End tags that close their element as a block. -/
def blockEndNames : List String :=
  ["address", "article", "aside", "blockquote", "button", "center", "details", "dialog", "dir",
    "div", "dl", "fieldset", "figcaption", "figure", "footer", "header", "hgroup", "listing",
    "main", "menu", "nav", "ol", "pre", "search", "section", "summary", "ul"]

def openTemplate (b : Builder) (tag : Tag) : Builder :=
  { (b.openTag tag).addMarker with
    mode := .template, templateModes := .template :: b.templateModes }

/-- Closes a template with all that is open inside. -/
def closeTemplate (b : Builder) : Builder :=
  if b.inTemplate then
    let b := b.popWhile fun e => Stack.impliedByTemplate.contains e.name
    let b := (b.popNamed "template").clearFormatting
    { b with templateModes := b.templateModes.drop 1 }.resetMode
  else b

/-- A start tag of what describes a document. -/
def startHead (b : Builder) (tag : Tag) : Builder :=
  match tag.name with
  | "title" => b.openRaw tag (.raw "title" true)
  | "noframes" | "style" => b.openRaw tag (.raw tag.name false)
  | "script" => b.openRaw tag .script
  | "template" => b.openTemplate tag
  | _ => b.addVoid tag.name

/-- Closes a list item that the next one ends. The search stops at an element of structure. -/
def closeItem (b : Builder) (names : List String) : Builder :=
  let blocks (e : OpenElement) : Bool :=
    e.isSpecial && !(["address", "div", "p"].contains e.name)
  match b.stack.find? fun e => names.contains e.name || blocks e with
  | some e =>
    if names.contains e.name then
      (b.popImpliedBut e.name).popNamed e.name
    else b
  | none => b

def startForm (b : Builder) (tag : Tag) : Builder :=
  if b.inTemplate then b.closeParagraph.openTag tag
  else if b.form.isSome then b
  else { b.closeParagraph.openTag tag with form := some b.draft.size }

def startLink (b : Builder) (tag : Tag) : Builder :=
  let b := match b.formatting? "a" with
    | some entry =>
      ((closeFormatting 8 b "a").remove entry.number).forget entry.number
    | none => b
  b.reopenFormatting.openFormatting tag

def startNobr (b : Builder) (tag : Tag) : Builder :=
  let b := b.reopenFormatting
  let b := if b.stack.has "nobr" then (closeFormatting 8 b "nobr").reopenFormatting else b
  b.openFormatting tag

def inTableMode : Mode → Bool
  | .table | .caption | .tableBody | .row | .cell => true
  | _ => false

def startSelect (b : Builder) (tag : Tag) : Builder :=
  let mode := if inTableMode b.mode then .selectInTable else .select
  (b.reopenFormatting.openTag tag).withMode mode

def startForeign (b : Builder) (space : Space) (tag : Tag) : Builder :=
  if tag.selfClosing then b.addVoid tag.name
  else b.openElement space tag.name tag.attributes

def ruby (b : Builder) (close : Builder → Builder) (tag : Tag) : Builder :=
  (if b.stack.has "ruby" then close b else b).openTag tag

/-- A start tag that has a rule of its own. -/
def startSingle (b : Builder) (tag : Tag) : Builder :=
  match tag.name with
  | "pre" | "listing" => { b.closeParagraph.openTag tag with skipNewline := true }
  | "form" => b.startForm tag
  | "li" => (b.closeItem ["li"]).closeParagraph.openTag tag
  | "dd" | "dt" => (b.closeItem ["dd", "dt"]).closeParagraph.openTag tag
  | "plaintext" => { b.closeParagraph.openTag tag with model := .plain }
  | "button" =>
    let b := if b.stack.has "button" then b.popImplied.popNamed "button" else b
    b.reopenFormatting.openTag tag
  | "a" => b.startLink tag
  | "nobr" => b.startNobr tag
  | "table" => (b.closeParagraph.openTag tag).withMode .table
  | "hr" => b.closeParagraph.addVoid tag.name
  | "image" => b.reopenFormatting.addVoid "img"
  | "textarea" => { b.openRaw tag (.raw tag.name true) with skipNewline := true }
  | "xmp" => b.closeParagraph.reopenFormatting.openRaw tag (.raw tag.name false)
  | "iframe" | "noembed" | "noscript" => b.openRaw tag (.raw tag.name false)
  | "select" => b.startSelect tag
  | "optgroup" | "option" =>
    (if b.isIn ["option"] then b.pop else b).reopenFormatting.openTag tag
  | "rb" | "rtc" => b.ruby popImplied tag
  | "rp" | "rt" => b.ruby (popImpliedBut · "rtc") tag
  | "math" => b.reopenFormatting.startForeign .math tag
  | "svg" => b.reopenFormatting.startForeign .svg tag
  | _ => b.reopenFormatting.openTag tag

def startBody (b : Builder) (tag : Tag) : Builder :=
  if headNames.contains tag.name then b.startHead tag
  else if misplacedNames.contains tag.name then b
  else if blockNames.contains tag.name then b.closeParagraph.openTag tag
  else if headingNames.contains tag.name then
    let b := b.closeParagraph
    (if b.isIn headingNames then b.pop else b).openTag tag
  else if voidNames.contains tag.name then b.reopenFormatting.addVoid tag.name
  else if plainVoidNames.contains tag.name then b.addVoid tag.name
  else if objectNames.contains tag.name then (b.reopenFormatting.openTag tag).addMarker
  else if formattingNames.contains tag.name && tag.name != "a" && tag.name != "nobr" then
    b.reopenFormatting.openFormatting tag
  else b.startSingle tag

/-- Closes the element of a name, if it is in scope. -/
def closeBlock (b : Builder) (name : String) : Builder :=
  if b.stack.has name then b.popImplied.popNamed name else b

/-- Outside templates the form is closed alone: what is open inside stays open, and stays inside. -/
def endForm (b : Builder) : Builder :=
  if b.inTemplate then b.closeBlock "form"
  else
    let rest := { b with form := none }
    match b.form with
    | some number =>
      if b.stack.has "form" then
        rest.popImplied.remove number
      else rest
    | none => rest

def endItem (b : Builder) (name : String) (bounds : OpenElement → Bool) : Builder :=
  if Stack.inScope bounds (OpenElement.isHtml · name) b.stack then
    (b.popImpliedBut name).popNamed name
  else b

def isHeading (e : OpenElement) : Bool := e.isHtmlIn headingNames

def endHeading (b : Builder) : Builder :=
  if Stack.inScope OpenElement.bounds isHeading b.stack then
    b.popImplied.popThrough isHeading
  else b

/-- The end of a paragraph, which is opened first if there is none. -/
def endParagraph (b : Builder) : Builder :=
  (if b.stack.hasInButton "p" then b else b.openImplied "p").closeParagraph

def endBody (b : Builder) (name : String) : Builder :=
  if formattingNames.contains name then closeFormatting 8 b name
  else if blockEndNames.contains name then b.closeBlock name
  else if headingNames.contains name then b.endHeading
  else if objectNames.contains name then
    if b.stack.has name then (b.closeBlock name).clearFormatting else b
  else
    match name with
    | "p" => b.endParagraph
    | "li" => b.endItem name OpenElement.boundsListItem
    | "dd" | "dt" => b.endItem name OpenElement.bounds
    | "br" => (b.reopenFormatting.openImplied "br").pop
    | "body" | "html" => if b.stack.has "body" then b.withMode .afterBody else b
    | "form" => b.endForm
    | "template" => b.closeTemplate
    | _ => b.closeOther name

end MarkupArena.Reading.Builder
