import MarkupArena.Number.Basic
import MarkupArena.Schema.Tag
import MarkupArena.Text.AttributeName
import MarkupArena.Text.Units
/-!
A schema: the tags it knows, in order, and the attributes that are common to them.
-/
namespace MarkupArena

structure Schema where
  version : Number
  tags : List TagInfo
  globalAttributes : List String
  globalPrefixes : List String
  deriving DecidableEq, Repr

namespace Schema

/-- The name under which text is listed among permitted children. -/
def textChild : String := "#text"

def tagNames (schema : Schema) : List String := schema.tags.map TagInfo.tagName

def find? (schema : Schema) (tag : String) : Option TagInfo :=
  schema.tags.find? fun info => info.tagName == tag

/-- The rules that are found for a tag name it. -/
theorem tagName_of_find? {schema : Schema} {tag : String} {info : TagInfo}
    (h : schema.find? tag = some info) : info.tagName = tag := by
  unfold find? at h
  have hname := List.find?_some h
  exact eq_of_beq hname

def has (schema : Schema) (tag : String) : Bool := (schema.find? tag).isSome

/-- Whether a name is common to all tags that take global attributes: listed, or an extension of a
listed lead such as `data-`. -/
def isGlobalAttribute (schema : Schema) (name : String) : Bool :=
  schema.globalAttributes.contains name ||
    schema.globalPrefixes.any fun lead => Text.extendsLead lead name

def permitsText (schema : Schema) (tag : String) : Bool :=
  (schema.find? tag).any TagInfo.allowsText

/-- The attributes of a tag itself, sorted. -/
def allowedAttributes (schema : Schema) (tag : String) : List String :=
  match schema.find? tag with
  | some info => Text.sorted info.attributeNames
  | none => []

/-- What may stand directly in a tag: text first where it is permitted, then the tags, sorted. -/
def allowedChildren (schema : Schema) (tag : String) : List String :=
  match schema.find? tag with
  | some info =>
    let names := Text.sorted info.permittedChildTags
    if info.allowsText then textChild :: names else names
  | none => []

end Schema

end MarkupArena
