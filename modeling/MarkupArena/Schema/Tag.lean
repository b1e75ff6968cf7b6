/-!
What a schema says about one tag: its attributes, and what it may contain.
-/
namespace MarkupArena

/-- The values that an attribute takes. -/
inductive AttributeType where
  | bool
  | string
  | integer
  | float
  | identifier (name : String)
  | enumerable (values : List String)
  deriving DecidableEq, Repr

structure AttributeInfo where
  name : String
  description : String
  type : AttributeType
  deriving DecidableEq, Repr

/-- The rules for one tag, with every tag that may be its direct child resolved by name. -/
structure TagInfo where
  tagName : String
  structName : String
  hasGlobalAttributes : Bool
  hasClosingTag : Bool
  attributes : List AttributeInfo
  contentCategories : List String
  permittedContent : List String
  excludedContent : List String
  permittedChildTags : List String
  allowsText : Bool
  deriving DecidableEq, Repr

namespace TagInfo

def attributeNames (info : TagInfo) : List String := info.attributes.map AttributeInfo.name

def hasAttribute (info : TagInfo) (name : String) : Bool := info.attributeNames.contains name

def permitsChild (info : TagInfo) (tag : String) : Bool := info.permittedChildTags.contains tag

end TagInfo

end MarkupArena
