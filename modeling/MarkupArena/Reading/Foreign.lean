import MarkupArena.Reading.Body
/-!
Foreign content: which tags fall under its rules, and how a tag gets from there to the rules of a
mode.
-/
namespace MarkupArena.Reading.Builder

/-- Start tags that leave foreign content. -/
def leavingNames : List String := [
  "b", "big", "blockquote", "body", "br", "center", "code", "dd", "div", "dl", "dt", "em", "embed",
  "h1", "h2", "h3", "h4", "h5", "h6", "head", "hr", "i", "img", "li", "listing", "menu", "meta",
  "nobr", "ol", "p", "pre", "ruby", "s", "small", "span", "strike", "strong", "sub", "sup",
  "table", "tt", "u", "ul", "var"]

def leavesForeign (tag : Tag) : Bool :=
  leavingNames.contains tag.name ||
    (tag.name == "font" &&
      tag.attributes.any fun given => ["color", "face", "size"].contains given.name)

/-- Closes foreign elements as long as the innermost one does not hold what HTML does. -/
def popForeign (b : Builder) : Builder :=
  let b := b.popWhile fun e => e.space != .html && !e.isIntegration
  if b.elements.innermost?.isNone then b.fail .nothingOpen else b

def isMathMark (tag : Tag) : Bool := tag.name == "mglyph" || tag.name == "malignmark"

/-- Whether a start tag falls under the rules of foreign content. -/
def startsForeign (b : Builder) (tag : Tag) : Bool :=
  let inAnnotation := match b.adjusted? with
    | some e => e.space == .math && e.name == "annotation-xml"
    | none => false
  let markHere := match b.adjusted? with
    | some e => isMathMark tag && !e.isHtmlIntegration
    | none => false
  if !b.elements.context.notHtml || (tag.name == "svg" && inAnnotation) then false
  else b.elements.context.foreign || markHere

/-- Sends a start tag to the rules of foreign content or to those of a mode. -/
def sendStart (rules : Builder → Builder) (tag : Tag) (b : Builder) : Builder :=
  if b.elements.innermost?.isNone && tag.name == "svg" then b.fail .nothingOpen
  else if !b.startsForeign tag then rules b
  else if leavesForeign tag then rules b.popForeign
  else b.startForeign ((b.adjusted?.map OpenElement.space).getD .html) tag

/-- Sends an end tag to the rules of a mode, unless it closes the innermost foreign element of its
name. -/
def sendEnd (rules : Builder → Builder) (name : String) (b : Builder) : Builder :=
  if !b.elements.context.notHtml then rules b
  else if name = "p" ∨ name = "br" then rules b.popForeign
  else
    let foreign := b.stack.dropLast.takeWhile fun e => e.space != .html
    let inner := foreign.takeWhile fun e => e.name != name
    if inner.length < foreign.length then b.onElements (OpenElements.popMany (inner.length + 1))
    else if foreign.length < b.stack.dropLast.length then rules b
    else b

end MarkupArena.Reading.Builder
