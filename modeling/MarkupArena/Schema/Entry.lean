import MarkupArena.Record
import MarkupArena.Schema.Basic
/-!
Entries of a schema document, and how they become a schema: children listed by structure name are
looked up, and every tag that shares a permitted category and no excluded one joins them.
-/
namespace MarkupArena

/-- One tag as a schema document describes it. -/
structure Entry where
  tagName : String
  structName : String
  hasGlobalAttributes : Bool := true
  hasClosingTag : Bool := true
  attributes : List AttributeInfo := []
  contentCategories : List String := []
  permittedContent : List String := []
  excludedContent : List String := []
  permittedChildElements : List String := []
  deriving DecidableEq, Repr

namespace Entry

/-- The structure name that stands for text. -/
def textStruct : String := "Text"

/-- The categories that text belongs to. -/
def textCategories : List String := ["phrasing", "flow"]

def meets (left right : List String) : Bool := left.any right.contains

/-- The tag of a structure name; the last entry of that name decides. -/
def tagOfStruct? (entries : List Entry) (name : String) : Option String :=
  (entries.reverse.find? fun entry => entry.structName == name).map Entry.tagName

/-- The tags that an entry lists by structure name, or the first name that no entry has. -/
def listedTags (entries : List Entry) : List String → Except String (List String)
  | [] => .ok []
  | name :: rest =>
    if name = textStruct then listedTags entries rest
    else
      match tagOfStruct? entries name with
      | none => .error name
      | some tag => (listedTags entries rest).map (tag :: ·)

/-- The tags that may stand in an entry because of their categories. -/
def tagsByCategory (entries : List Entry) (entry : Entry) : List String :=
  (entries.filter fun candidate =>
    meets candidate.contentCategories entry.permittedContent &&
      !meets candidate.contentCategories entry.excludedContent).map Entry.tagName

/-- The attributes by name, the last description of a repeated name winning. -/
def attributeTable (attributes : List AttributeInfo) : List AttributeInfo :=
  (Record.ofAssignments (attributes.map fun info => (info.name, info))).map Prod.snd

/-- The rules for an entry's tag among all entries. -/
def resolve (entries : List Entry) (entry : Entry) : Except String TagInfo := do
  let listed ← listedTags entries entry.permittedChildElements
  return {
    tagName := entry.tagName
    structName := entry.structName
    hasGlobalAttributes := entry.hasGlobalAttributes
    hasClosingTag := entry.hasClosingTag
    attributes := attributeTable entry.attributes
    contentCategories := Text.distinct entry.contentCategories
    permittedContent := Text.distinct entry.permittedContent
    excludedContent := Text.distinct entry.excludedContent
    permittedChildTags := Text.distinct (listed ++ tagsByCategory entries entry)
    allowsText := meets entry.permittedContent textCategories ||
      entry.permittedChildElements.contains textStruct }

end Entry

end MarkupArena
