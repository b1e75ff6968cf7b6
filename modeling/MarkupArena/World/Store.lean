import MarkupArena.World.Ownership
/-!
Storing nodes, linking arenas, and starting over. A node is stored only within the budget and after
all its children were seen to resolve.
-/
namespace MarkupArena

def resolve (a : ArenaId) (h : Handle) : Action Node := observe fun w => w.resolve a h

namespace World

/-- The world with a node in the next slot of an arena. -/
def store (w : World) (a : ArenaId) (node : Node) : World :=
  let w := w.modifyArena a (·.push node)
  { w with stored := w.stored + 1 }

/-- A handle of the node that was stored last in an arena. -/
def lastHandle (w : World) (a : ArenaId) (copy : Nat := 0) : Handle :=
  let arena := w.arena a
  a.handle arena.generation (arena.size - 1) copy

end World

/-- The handle of a node just stored has the slot that was next. -/
theorem World.lastHandle_store (w : World) (a : ArenaId) (node : Node)
    (h : a.index < w.arenas.size) {copy : Nat} : (w.store a node).lastHandle a copy =
      a.handle (w.arena a).generation (w.arena a).size copy := by
  have ha : (w.store a node).arena a = (w.arena a).push node := w.arena_modifyArena_self a _ h
  simp [World.lastHandle, ha, Arena.push, Arena.size]

/-- Stores a node in the next slot. -/
def allocate (a : ArenaId) (node : Node) : Action Handle := do
  let arena := (← get).arena a
  match arena.exceededLimit? with
  | some limit => throw (.budgetExceeded limit (arena.size + 1))
  | none =>
    node.children.forM fun child => discard (resolve a child)
    modify fun w => w.store a node
    return (← get).lastHandle a

/-- Lets handles of `source` resolve from `a`. Linking twice, or to oneself, does nothing. -/
def link (a source : ArenaId) : Action Unit :=
  modify fun w =>
    let arena := w.arena a
    if source = a ∨ source ∈ arena.links then w
    else (w.modifyArena a (·.addLink source)).tell arena.listener (.link a source)

/-- Links a source and checks that a handle resolves. -/
def graft (a source : ArenaId) (h : Handle) : Action Handle := do
  link a source
  let _ ← resolve a h
  return h

/-- Drops all nodes and links of an arena, so that its handles become stale. -/
def reset (a : ArenaId) : Action Unit :=
  modify fun w =>
    let arena := w.arena a
    (w.modifyArena a Arena.next).tell arena.listener (.reset a (arena.generation + 1) arena.size)

end MarkupArena
