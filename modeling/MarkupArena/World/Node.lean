import MarkupArena.Schema.Tag
import MarkupArena.World.Handle
/-!
What an arena stores: elements and fragments over handles, text, and markup that is already
rendered.
-/
namespace MarkupArena

structure Attribute where
  name : String
  value : String
  deriving DecidableEq, Repr

/-- Rendered markup with a summary of its top level: the tags in order of first occurrence, and
whether there is text other than white space. -/
structure Rendered where
  html : String
  tagNames : List String
  hasText : Bool
  deriving DecidableEq, Repr

/-- An element keeps the rules of its tag under which it was made. Its tag is the one that they
name: rules are looked up by the tag (`Schema.tagName_of_find?`), and an element that is stored
again with other children keeps both. -/
structure Element where
  info : TagInfo
  attributes : List Attribute
  children : List Handle
  deriving DecidableEq, Repr

def Element.tag (e : Element) : String := e.info.tagName

/-- A fragment groups nodes where one is expected and leaves no trace in markup. -/
inductive Node where
  | element (e : Element)
  | text (value : String)
  | fragment (children : List Handle)
  | rendered (markup : Rendered)
  deriving DecidableEq, Repr

def Node.children : Node → List Handle
  | element e => e.children
  | fragment children => children
  | _ => []

end MarkupArena
