import MarkupArena.Build.Element
/-!
Revising a stored tree. A visitor decides for every node whether it stays, goes, or is replaced.
Nodes with nothing changed under them keep their handles; an ancestor of a change is stored anew.
Replacements are not visited. A copy of a node's handle is a replacement like any other.
-/
namespace MarkupArena

/-- What stands in for a node: a node that is there, or one to be made. -/
inductive Replacement where
  | stored (handle : Handle)
  | described (description : Description)
  deriving Repr

inductive Change where
  | keep
  | replace (node : Replacement)
  | remove
  | splice (nodes : List Replacement)
  deriving Repr

namespace Revision

variable {m : Type → Type} [Monad m] [MonadLiftT Action m]

/-- A visitor is told the node, its handle and its depth. -/
abbrev Visitor (m : Type → Type) := Node → Handle → Nat → m Change

def materialize (dest : ArenaId) : Replacement → Action Handle
  | .stored handle => pure handle
  | .described description => Build.realize dest description

/-- Stores a node again with other children. -/
def rebuild (dest : ArenaId) (node : Node) (children : List Handle) : Action Handle :=
  match node with
  | .element e => Build.withChildren dest e children
  | _ => allocate dest (.fragment children)

/-- The handle for a node once its children are revised: its own if they stay as they are. -/
def settle (dest : ArenaId) (node : Node) (h : Handle) (results : List (List Handle)) :
    Action Handle :=
  if results = node.children.map fun child => [child] then pure h
  else rebuild dest node results.flatten

/-- What becomes of a node, at a depth and with a bound for the depth under it. -/
def visit (source dest : ArenaId) (visitor : Visitor m) : Nat → Nat → Handle → m (List Handle)
  | 0, _, _ => monadLift (throw Failure.tooDeep : Action (List Handle))
  | bound + 1, depth, h => do
    let node ← monadLift (resolve source h)
    let descend : m (List Handle) := do
      let results ← node.children.mapM (visit source dest visitor bound (depth + 1))
      return [← monadLift (settle dest node h results)]
    match ← visitor node h depth with
    | .keep => descend
    | .replace (.stored handle) => if handle = h then descend else return [handle]
    | .replace described => return [← monadLift (materialize dest described)]
    | .remove => return []
    | .splice nodes => nodes.mapM fun replacement => monadLift (materialize dest replacement)

/-- Revises the tree under a root of `source`, storing new nodes in `dest`. Anything but a single
result is collected in a fragment. -/
def revise (source dest : ArenaId) (root : Handle) (visitor : Visitor m) : m Handle := do
  monadLift (link dest source)
  let bound ← monadLift (observe fun w => .ok w.depthBound)
  match ← visit source dest visitor bound 0 root with
  | [only] => return only
  | results => monadLift (allocate dest (.fragment results))

/-- Replaces the nodes for which there is a replacement. -/
def replaceNodes (source dest : ArenaId) (root : Handle)
    (f : Node → Handle → m (Option Replacement)) : m Handle :=
  revise source dest root fun node h _ => do
    return match ← f node h with
      | some replacement => .replace replacement
      | none => .keep

/-- Drops the nodes that a test refuses, with all under them. -/
def filterNodes (source dest : ArenaId) (root : Handle) (accepts : Node → Handle → m Bool) :
    m Handle :=
  revise source dest root fun node h _ => do
    return if ← accepts node h then .keep else .remove

def keepAll (source dest : ArenaId) (root : Handle) : m Handle :=
  revise source dest root fun _ _ _ => pure .keep

end Revision

end MarkupArena
