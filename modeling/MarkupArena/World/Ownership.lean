import MarkupArena.World.Basic
/-!
Which arena a handle belongs to. The search goes depth first along links and visits no arena twice;
the arenas not yet visited bound it.
-/
namespace MarkupArena.World

/-- The first arena with a number among those pending and what they link to, as far as it was not
visited before. -/
def search (w : World) (number : Coordinate) (unvisited pending : List ArenaId) : Option ArenaId :=
  match pending with
  | [] => none
  | a :: rest =>
    if a ∈ unvisited then
      if number = .count a.number then some a
      else w.search number (unvisited.erase a) ((w.arena a).links ++ rest)
    else w.search number unvisited rest
termination_by (unvisited.length, pending.length)
decreasing_by
  · rename_i h _
    have := List.length_pos_of_mem h
    simp only [List.length_erase_of_mem h]
    exact Prod.Lex.left _ _ (by omega)
  · exact Prod.Lex.right _ (by simp)

def arenaIds (w : World) : List ArenaId := (List.range w.arenas.size).map ArenaId.mk

/-- The arena with a number that is `a` or linked from it, directly or through others. -/
def owner? (w : World) (a : ArenaId) (number : Coordinate) : Option ArenaId :=
  w.search number w.arenaIds [a]

/-- The node of a handle within the arena that it names. -/
def resolveOwn (w : World) (a : ArenaId) (h : Handle) : Except Failure Node :=
  let arena := w.arena a
  if h.generation ≠ .count arena.generation then .error (.invalidHandle .staleGeneration h a)
  else
    match arena.nodeAt? h.slot with
    | some node => .ok node
    | none => .error (.invalidHandle .outOfRange h a)

/-- The node of a handle, seen from arena `a`. -/
def resolve (w : World) (a : ArenaId) (h : Handle) : Except Failure Node :=
  match w.owner? a h.arena with
  | some owner => w.resolveOwn owner h
  | none => .error (.invalidHandle .foreignArena h a)

/-- Whether a handle has an arena's number, its current generation and a slot below its size. -/
def owns (w : World) (a : ArenaId) (h : Handle) : Bool :=
  h.arena = .count a.number && h.generation = .count (w.arena a).generation &&
    h.slot.below (w.arena a).size

/-- Whether the arena that a handle names is in reach and owns it. -/
def canResolve (w : World) (a : ArenaId) (h : Handle) : Bool :=
  match w.owner? a h.arena with
  | some owner => w.owns owner h
  | none => false

end MarkupArena.World
