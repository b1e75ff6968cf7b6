import MarkupArena.Reading.Body
/-!
Parts of tables and selections: opening and closing them, and putting stray content before a table.
-/
namespace MarkupArena.Reading.Builder

/-- Applies the rules of ordinary content, with stray content of a table put before it. -/
def fosteringDo (b : Builder) (rule : Builder → Builder) : Builder :=
  { rule { b with fostering := true } with fostering := b.fostering }

def clearTo (b : Builder) (names : List String) : Builder :=
  b.onElements (OpenElements.clearWhile fun e => !e.isHtmlIn names)

def clearToTable (b : Builder) : Builder := b.clearTo ["table", "template", "html"]

def clearToSection (b : Builder) : Builder :=
  b.clearTo ["tbody", "tfoot", "thead", "template", "html"]

def clearToRow (b : Builder) : Builder := b.clearTo ["tr", "template", "html"]

def sectionNames : List String := ["tbody", "tfoot", "thead"]

def cellNames : List String := ["td", "th"]

/-- Start tags of the parts of a table. -/
def partNames : List String :=
  ["caption", "col", "colgroup", "tbody", "td", "tfoot", "th", "thead", "tr"]

/-- Whether a section of the innermost table is open. -/
def inSection (b : Builder) : Bool :=
  Stack.inScope OpenElement.boundsTable (OpenElement.isHtmlIn · sectionNames) b.stack

def openCell (b : Builder) (tag : Tag) : Builder :=
  ((b.clearToRow.openTag tag).withMode .cell).addMarker

def openRow (b : Builder) (tag : Tag) : Builder := (b.clearToSection.openTag tag).withMode .row

/-- Opens a cell in a row that no tag asked for. -/
def openCellInRow (b : Builder) (tag : Tag) : Builder :=
  ((b.clearToSection.openImplied "tr").withMode .row).openCell tag

def openColumn (b : Builder) : Builder := b.addVoid "col"

def closeCaption (b : Builder) : Builder :=
  (b.popImplied.popNamed "caption").clearFormatting.withMode .table

def closeCell (b : Builder) : Builder :=
  (b.popImplied.popThrough (OpenElement.isHtmlIn · cellNames)).clearFormatting.withMode .row

def closeRow (b : Builder) : Builder := b.clearToRow.pop.withMode .tableBody

def closeSection (b : Builder) : Builder := b.clearToSection.pop.withMode .table

def inCell (b : Builder) : Bool := b.stack.hasInTable "td" || b.stack.hasInTable "th"

def isHidden (tag : Tag) : Bool :=
  tag.attributes.any fun given => given.name == "type" && given.value.toLower == "hidden"

def startOption (b : Builder) (tag : Tag) : Builder :=
  (if b.isIn ["option"] then b.pop else b).openTag tag

def closeOptions (b : Builder) : Builder :=
  let b := if b.isIn ["option"] then b.pop else b
  if b.isIn ["optgroup"] then b.pop else b

/-- Whether the innermost element is an option of a group. -/
def isOptionInGroup (b : Builder) : Bool :=
  match b.stack with
  | option :: group :: _ => option.name == "option" && group.name == "optgroup"
  | _ => false

def closeSelect (b : Builder) : Builder := (b.popNamed "select").resetMode

def inSelectScope (b : Builder) : Bool :=
  Stack.inScope OpenElement.boundsSelect (OpenElement.isHtml · "select") b.stack

end MarkupArena.Reading.Builder
