import MarkupArena.Reading.Draft
import MarkupArena.Reading.Fault
import MarkupArena.Reading.OpenElements
import MarkupArena.Reading.Token
/-!
The state of reading a text into content, and the steps that all its modes share: opening and
closing elements, adding text, and finding the mode that fits the open elements.
-/
namespace MarkupArena.Reading

/-- Which rules the next token falls under. -/
inductive Mode where
  | template
  | beforeHead
  | head
  | afterHead
  | body
  | afterBody
  | frameset
  | rawText
  | table
  | tableText
  | caption
  | columnGroup
  | tableBody
  | row
  | cell
  | select
  | selectInTable
  deriving DecidableEq, Repr

/-- How the characters of the current element are split into tokens. -/
inductive TextModel where
  | markup
  | raw (name : String) (references : Bool)
  | script
  | plain
  deriving DecidableEq, Repr

/-- A formatting element, which need not be open any more. -/
structure Formatting where
  number : Nat
  name : String
  attributes : List Attribute
  deriving DecidableEq, Repr

/-- `formatting` has the latest element first and `none` where a cell or an object begins. -/
structure Builder where
  draft : Draft
  elements : OpenElements
  mode : Mode
  /-- The mode to return to after raw text or the text of a table. -/
  returnMode : Mode
  templateModes : List Mode
  formatting : List (Option Formatting)
  model : TextModel
  /-- The form that the next end tag of a form closes. -/
  form : Option Nat
  head : Option Nat
  skipNewline : Bool
  /-- Whether the token before was a NUL character. -/
  afterNul : Bool
  fostering : Bool
  /-- Text of a table, last character first. -/
  tableText : List Char
  /-- The first reason why reading cannot go on. -/
  fault : Option Fault

namespace Builder

/-- Nothing read yet, in the context of a template. -/
def start : Builder where
  draft := .start
  elements := .start ⟨Draft.root, .html, "html", []⟩
  mode := .template
  returnMode := .template
  templateModes := [.template]
  formatting := []
  model := .markup
  form := none
  head := none
  skipNewline := false
  afterNul := false
  fostering := false
  tableText := []
  fault := none

def fail (b : Builder) (fault : Fault) : Builder := { b with fault := b.fault.or (some fault) }

/-- The open elements that searches find. -/
def stack (b : Builder) : Stack := b.elements.visible

def onElements (b : Builder) (f : OpenElements → OpenElements) : Builder :=
  { b with elements := f b.elements }

/-- Closes elements up to and with the first of which a test holds. -/
def popThrough (b : Builder) (test : OpenElement → Bool) : Builder :=
  b.onElements (OpenElements.popThrough test)

def popNamed (b : Builder) (name : String) : Builder := b.popThrough (OpenElement.isHtml · name)

/-- Closes one element and leaves those inside it open. -/
def remove (b : Builder) (number : Nat) : Builder := b.onElements (OpenElements.remove number)

def pop (b : Builder) : Builder := b.onElements OpenElements.pop

def popWhile (b : Builder) (test : OpenElement → Bool) : Builder :=
  b.onElements (OpenElements.popWhile test)

/-- Closes elements whose end tag may be left out. -/
def popImplied (b : Builder) : Builder := b.popWhile fun e => Stack.impliedNames.contains e.name

def popImpliedBut (b : Builder) (name : String) : Builder :=
  b.popWhile fun e => Stack.impliedNames.contains e.name && e.name != name

/-- Whether the innermost element has one of some names. -/
def isIn (b : Builder) (names : List String) : Bool :=
  (b.elements.innermost?.map fun e => names.contains e.name).getD false

def withMode (b : Builder) (mode : Mode) : Builder := { b with mode }

/-- The innermost element. The only one that is found stands for a template, whatever it is. -/
def adjusted? (b : Builder) : Option OpenElement :=
  match b.stack with
  | [e] => some { e with space := .html, name := "template" }
  | _ => b.elements.innermost?

/-- Whether new content is fostered. -/
def fosters (b : Builder) : Bool := b.fostering && b.isIn OpenElement.tableNames

/-- The end of an element, or of the document if there is none. -/
def endSpot (e : Option OpenElement) : Spot :=
  ⟨(e.map OpenElement.number).getD Draft.document, none⟩

/-- The spot just before the innermost table of a stack or at the end of the template inside it;
without either, the end of the outermost element, be it only the last that there was. -/
def fosterSpot (draft : Draft) (last : Option OpenElement) : Stack → Spot
  | [] => endSpot last
  | e :: rest =>
    if e.isHtml "template" then endSpot e
    else if e.name = "table" then
      match draft.parent? e.number with
      | some parent => ⟨parent, some e.number⟩
      | none => endSpot rest.head?
    else fosterSpot draft (some e) rest

/-- Where new content goes. -/
def spot (b : Builder) : Spot :=
  if b.fosters then fosterSpot b.draft b.elements.past.head? b.stack
  else endSpot b.elements.innermost?

def add (b : Builder) (piece : Piece) : Builder :=
  let spot := b.spot
  { b with draft := b.draft.insert spot piece }

/-- Makes an element and puts it where new content goes. -/
def addElement (b : Builder) (name : String) (isSealed : Bool) : Builder :=
  let number := b.draft.size
  { b with draft := b.draft.create name isSealed }.add (.element number)

/-- Adds an element that has no content. -/
def addVoid (b : Builder) (name : String) : Builder := b.addElement name false

/-- Adds text to an element; the document holds none. -/
def addChar (b : Builder) (c : Char) : Builder :=
  if b.elements.innermost?.isNone then b.fail .nothingOpen else b.add (.text (String.singleton c))

def openElement (b : Builder) (space : Space) (name : String) (attributes : List Attribute) :
    Builder :=
  let opened : OpenElement := ⟨b.draft.size, space, name, attributes⟩
  let b := b.addElement name (opened.isHtml "template")
  b.onElements (OpenElements.push · opened)

def openTag (b : Builder) (tag : Tag) : Builder := b.openElement .html tag.name tag.attributes

/-- Opens an element that no tag asked for. -/
def openImplied (b : Builder) (name : String) : Builder := b.openElement .html name []

/-- Closes a paragraph that a block ends. -/
def closeParagraph (b : Builder) : Builder :=
  if b.stack.hasInButton "p" then (b.popImpliedBut "p").popNamed "p" else b

def inTemplate (b : Builder) : Bool := b.elements.any (OpenElement.isHtml · "template")

/-- Opens an element whose text is not markup. -/
def openRaw (b : Builder) (tag : Tag) (model : TextModel) : Builder :=
  { b.openTag tag with model, returnMode := b.mode, mode := .rawText }

/-- Opens the head, by a tag if there is one. -/
def openHead (b : Builder) (attributes : List Attribute) : Builder :=
  { b.openElement .html "head" attributes with head := some b.draft.size, mode := .head }

/-- The mode that fits the open elements, the text being read as a template's content. -/
def modeFor (templateMode : Mode) (hasHead : Bool) : Stack → Mode
  | [] => .body
  | [_] => templateMode
  | e :: rest =>
    match e.name with
    | "tr" => .row
    | "tbody" | "thead" | "tfoot" => .tableBody
    | "caption" => .caption
    | "colgroup" => .columnGroup
    | "table" => .table
    | "td" | "th" => .cell
    | "template" => templateMode
    | "select" =>
      let outer := rest.dropLast.find? fun o => o.name == "table" || o.name == "template"
      if (outer.map OpenElement.name) = some "table" then .selectInTable else .select
    | "html" => if hasHead then .afterHead else .beforeHead
    | "head" => .head
    | "body" => .body
    | "frameset" => .frameset
    | _ => modeFor templateMode hasHead rest

def resetMode (b : Builder) : Builder :=
  b.withMode (modeFor (b.templateModes.head?.getD .template) b.head.isSome b.stack)

end Builder

end MarkupArena.Reading
