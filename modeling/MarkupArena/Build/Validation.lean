import MarkupArena.Build.Children
import MarkupArena.World.Ownership
/-!
Checks of an element's attributes and children against the schema of the arena it is made in. A
fragment among the children stands for its members; their faults count as its own.
-/
namespace MarkupArena.World

/-- A refusal that is due to the child at an index. -/
def atChild (index : Nat) (outcome : Except Rejection Unit) : Except Failure Unit :=
  outcome.mapError fun why => .rejected why (some index)

def checkAttributes (schema : Schema) (tag : String) (attributes : List Attribute) :
    Except Failure Unit :=
  attributes.forM fun given =>
    (schema.checkAttribute tag given.name).mapError fun why => .rejected why none

/-- Checks what the summary of rendered markup names. -/
def checkRendered (schema : Schema) (info : TagInfo) (markup : Rendered) :
    Except Rejection Unit := do
  markup.tagNames.forM fun tag => schema.checkChild info.tagName tag
  if markup.hasText && !info.allowsText then
    throw (schema.refuseChild info.tagName Schema.textChild)

/-- Checks a node as the child at an index of a tag. -/
def checkMember (w : World) (a : ArenaId) (info : TagInfo) (index : Nat) :
    Nat → Node → Except Failure Unit
  | 0, _ => .error .tooDeep
  | fuel + 1, node =>
    let schema := (w.arena a).options.schema
    match node with
    | .element e => atChild index (schema.checkChild info.tagName e.tag)
    | .text value => atChild index (schema.checkText info.tagName value)
    | .rendered markup => atChild index (checkRendered schema info markup)
    | .fragment children => children.forM fun child => do
      let member ← w.resolve a child
      w.checkMember a info index fuel member

def checkPart (w : World) (a : ArenaId) (info : TagInfo) (index : Nat) :
    Part → Except Failure Unit
  | .text value =>
    atChild index ((w.arena a).options.schema.checkText info.tagName value)
  | .node handle => do
    let node ← w.resolve a handle
    w.checkMember a info index w.depthBound node

/-- Checks parts as the children of a tag, counting from an index. -/
def checkParts (w : World) (a : ArenaId) (info : TagInfo) : Nat → List Part → Except Failure Unit
  | _, [] => .ok ()
  | index, part :: rest => do
    w.checkPart a info index part
    w.checkParts a info (index + 1) rest

end MarkupArena.World
