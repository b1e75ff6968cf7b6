import MarkupArena.Build.CallSite
import MarkupArena.Build.Validation
import MarkupArena.World.Store
/-!
Making nodes. An element is checked in full before anything is stored for it; then its text
children are stored in order, and the element last.
-/
namespace MarkupArena.Build

def nbsp : String := "\u00a0"

def text (a : ArenaId) (value : String) : Action Handle := allocate a (.text value)

def rendered (a : ArenaId) (markup : Rendered) : Action Handle := allocate a (.rendered markup)

/-- Stores a text part; a node is there already. -/
def store (a : ArenaId) : Part → Action Handle
  | .text value => text a value
  | .node handle => pure handle

def fragment (a : ArenaId) (children : List Child) : Action Handle := do
  let handles ← (Child.listParts children).mapM (store a)
  allocate a (.fragment handles)

def refuse {α : Type} (outcome : Except Rejection α) : Action α :=
  observe fun _ => outcome.mapError fun why => .rejected why none

/-- The attribute that records where an element was made. -/
def siteAttribute : String := "title"

/-- Adds the call site to the attributes. An element with a title of its own keeps it, and the
listener is told. -/
def recordSite (a : ArenaId) (tag : String) (site : CallSite) (attributes : List Attribute) :
    Action (List Attribute) := do
  if attributes.any fun given => given.name == siteAttribute then
    modify fun w => w.tell (w.arena a).listener (.siteSkipped a tag)
    return attributes
  else
    return attributes ++ [⟨siteAttribute, site.title⟩]

/-- Makes an element, with its call site among the attributes if one is given. -/
def elementAt (a : ArenaId) (site : Option CallSite) (tag : String) (input : AttributeInput)
    (children : List Child) : Action Handle := do
  let options := ((← get).arena a).options
  let info ← refuse (options.schema.lookup tag)
  let given ← refuse (input.normalize tag)
  let parts := Child.listParts children
  if options.validate then
    observe fun _ => World.checkAttributes options.schema tag given
    observe fun w => w.checkParts a info 0 parts
  let attributes ← match site with
    | some site => recordSite a tag site given
    | none => pure given
  let handles ← parts.mapM (store a)
  allocate a (.element ⟨info, attributes, handles⟩)

/-- Makes an element; an arena that traces construction has its call site recorded. -/
def element (a : ArenaId) (site : CallSite) (tag : String) (input : AttributeInput)
    (children : List Child) : Action Handle := do
  let traced := ((← get).arena a).options.traceConstruction
  elementAt a (if traced then some site else none) tag input children

/-- Makes the node that a description tells of. No call site is recorded. -/
def realize (a : ArenaId) : Description → Action Handle
  | .element tag input children => elementAt a none tag input [children]
  | .text value => text a value
  | .fragment children => fragment a [children]
  | .rendered markup => rendered a markup

/-- Makes a copy of an element with other children. -/
def withChildren (a : ArenaId) (e : Element) (children : List Handle) : Action Handle := do
  if ((← get).arena a).options.validate then
    observe fun w => w.checkParts a e.info 0 (children.map Part.node)
  allocate a (.element { e with children })

end MarkupArena.Build
