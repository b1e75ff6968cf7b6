import MarkupArena.World.Node
/-!
The elements that may be open in a text being read, and stacks of them, innermost first. The
outermost one is that of the text as a whole; only after misnamed foreign elements do some rules
close it, too.
-/
namespace MarkupArena.Reading

inductive Space where
  | html
  | svg
  | math
  deriving DecidableEq, Repr

/-- An open element, with its number in the draft. -/
structure OpenElement where
  number : Nat
  space : Space
  name : String
  attributes : List Attribute
  deriving DecidableEq, Repr

namespace OpenElement

def isHtml (e : OpenElement) (name : String) : Bool := e.space == .html && e.name == name

def isHtmlIn (e : OpenElement) (names : List String) : Bool :=
  e.space == .html && names.contains e.name

def tableNames : List String := ["table", "tbody", "tfoot", "thead", "tr"]

/-- Whether stray content inside is fostered. -/
def fosters (e : OpenElement) : Bool := tableNames.contains e.name

/-- Where the search for an element in scope ends. -/
def bounds (e : OpenElement) : Bool :=
  match e.space with
  | .html =>
    ["applet", "caption", "html", "marquee", "object", "table", "td", "template", "th"].contains
      e.name
  | .math => ["annotation-xml", "mi", "mn", "mo", "ms", "mtext"].contains e.name
  | .svg => ["desc", "foreignobject", "title"].contains e.name

def boundsButton (e : OpenElement) : Bool := e.bounds || e.isHtml "button"

def boundsListItem (e : OpenElement) : Bool := e.bounds || e.isHtmlIn ["ol", "ul"]

/-- A template does not hide the table around it. -/
def boundsTable (e : OpenElement) : Bool := e.isHtmlIn ["html", "table"]

def boundsSelect (e : OpenElement) : Bool :=
  e.space == .html && !(["option", "optgroup"].contains e.name)

def specialNames : List String := [
  "address", "applet", "area", "article", "aside", "base", "basefont", "bgsound", "blockquote",
  "body", "br", "button", "caption", "center", "col", "colgroup", "dd", "details", "dir", "div",
  "dl", "dt", "embed", "fieldset", "figcaption", "figure", "footer", "form", "frame", "frameset",
  "h1", "h2", "h3", "h4", "h5", "h6", "head", "header", "hgroup", "hr", "html", "iframe", "img",
  "input", "li", "link", "listing", "main", "marquee", "menu", "meta", "nav", "noembed",
  "noframes", "noscript", "object", "ol", "p", "param", "plaintext", "pre", "script", "section",
  "select", "source", "style", "summary", "table", "tbody", "td", "template", "textarea", "tfoot",
  "th", "thead", "title", "tr", "track", "ul", "wbr", "xmp"]

/-- Whether an element takes part in the structure of the text, unlike the markup of phrases. -/
def isSpecial (e : OpenElement) : Bool :=
  match e.space with
  | .html => specialNames.contains e.name
  | _ => e.bounds

/-- Whether an end tag in HTML content closes the element. No such tag spells the mixed case of a
foreign object. -/
def endsWith (e : OpenElement) (name : String) : Bool :=
  e.name == name && !(e.space == .svg && name == "foreignobject")

/-- Whether an element of foreign content holds text as HTML does. -/
def isTextIntegration (e : OpenElement) : Bool :=
  e.space == .math && ["mi", "mo", "mn", "ms", "mtext"].contains e.name

def isHtmlIntegration (e : OpenElement) : Bool :=
  match e.space with
  | .html => false
  | .svg => ["foreignobject", "desc", "title"].contains e.name
  | .math => e.name == "annotation-xml" && e.attributes.any fun given =>
      given.name == "encoding" &&
        ["text/html", "application/xhtml+xml"].contains given.value.toLower

def isIntegration (e : OpenElement) : Bool := e.isTextIntegration || e.isHtmlIntegration

end OpenElement

abbrev Stack := List OpenElement

namespace Stack

/-- Whether an element is found before a bound. The end of the stack counts as found. -/
def inScope (bounds wanted : OpenElement → Bool) : Stack → Bool
  | [] => true
  | e :: rest => wanted e || (!bounds e && inScope bounds wanted rest)

def has (stack : Stack) (name : String) : Bool :=
  inScope OpenElement.bounds (OpenElement.isHtml · name) stack

def hasInButton (stack : Stack) (name : String) : Bool :=
  inScope OpenElement.boundsButton (OpenElement.isHtml · name) stack

def hasInTable (stack : Stack) (name : String) : Bool :=
  inScope OpenElement.boundsTable (OpenElement.isHtml · name) stack

/-- Whether stray content in the innermost element is fostered. -/
def topFosters (stack : Stack) : Bool := (stack.head?.map OpenElement.fosters).getD false

def impliedNames : List String :=
  ["dd", "dt", "li", "optgroup", "option", "p", "rb", "rp", "rt", "rtc"]

def impliedByTemplate : List String :=
  impliedNames ++ ["caption", "colgroup", "tbody", "td", "tfoot", "th", "thead", "tr"]

end Stack

end MarkupArena.Reading
