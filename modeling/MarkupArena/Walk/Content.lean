import MarkupArena.Reading.Summary
import MarkupArena.Walk.Cursor
import MarkupArena.World.Store
/-!
What a walk finds: elements, counts and text, and lists of handles with elements replaced by their
children.
-/
namespace MarkupArena

namespace World

/-- The elements among what was visited. -/
def elementsOf (visited : List Visited) : List (Element × Visited) :=
  visited.filterMap fun v =>
    match v.node with
    | .element e => some (e, v)
    | _ => none

def walkElements (w : World) (a : ArenaId) (root : Handle) :
    Except Failure (List (Element × Visited)) :=
  (w.walk a root).map elementsOf

def findAll (w : World) (a : ArenaId) (root : Handle) (tag : String) :
    Except Failure (List Handle) :=
  (w.walkElements a root).map fun found =>
    (found.filter fun (e, _) => e.tag == tag).map fun (_, v) => v.handle

def count (w : World) (a : ArenaId) (root : Handle) : Except Failure Nat :=
  (w.walk a root).map List.length

/-- The text of one node; rendered markup is read to recover it. -/
def ownText : Node → Except Failure String
  | .text value => .ok value
  | .rendered markup =>
    match Reading.summarize markup.html with
    | .ok summary => .ok summary.text
    | .error fault => .error (.unreadable fault)
  | _ => .ok ""

/-- The text of a subtree. It fails at the first node whose text cannot be read or, after all that
were visited, where the walk fails. -/
def textContent (w : World) (a : ArenaId) (root : Handle) : Except Failure String := do
  let (visited, failure) := Cursor.walk w a (Cursor.start w root)
  let texts ← visited.mapM fun v => ownText v.node
  match failure with
  | none => return String.join texts
  | some failure => throw failure

/-- The element of a handle, if it has a tag. -/
def elementNamed (w : World) (a : ArenaId) (h : Handle) (tag : String) :
    Except Failure (Option Element) := do
  match ← w.resolve a h with
  | .element e => return if e.tag = tag then some e else none
  | _ => return none

/-- The children of an element that stands alone; any other list stays. In the strict form an
element with attributes stays as well. -/
def unwrapOnly (w : World) (a : ArenaId) (handles : List Handle) (tag : String) (strict : Bool) :
    Except Failure (List Handle) := do
  match handles with
  | [only] =>
    match ← w.elementNamed a only tag with
    | some e => return if strict && !e.attributes.isEmpty then handles else e.children
    | none => return handles
  | _ => return handles

/-- Puts the children of every element of a tag in its place. -/
def unwrapAll (w : World) (a : ArenaId) (handles : List Handle) (tag : String) :
    Except Failure (List Handle) := do
  let parts ← handles.mapM fun h => do
    return match ← w.elementNamed a h tag with
      | some e => e.children
      | none => [h]
  return parts.flatten

/-- Splits before the first handle whose node passes a test. Handles after it are not looked at. -/
def splitWhen (w : World) (a : ArenaId) (test : Node → Handle → Bool) :
    List Handle → Except Failure (Option (List Handle × List Handle))
  | [] => .ok none
  | h :: rest => do
    let node ← w.resolve a h
    if test node h then return some ([], h :: rest)
    else
      return (← w.splitWhen a test rest).map fun (before, after) => (h :: before, after)

end World

/-- A text node with the text of a subtree: the node itself if it is one, else a new one. -/
def plainText (a : ArenaId) (h : Handle) : Action Handle := do
  match ← resolve a h with
  | .text _ => return h
  | _ =>
    let text ← observe fun w => w.textContent a h
    allocate a (.text text)

end MarkupArena
