import MarkupArena.Cache
import MarkupArena.Schema.Html
import MarkupArena.World.Failure
import MarkupArena.World.Node
import MarkupArena.World.Trace
/-!
A world: all arenas, pools, caches and listeners there are, and what the listeners were told.
Operations are actions on it; what an action did before it failed stays done.
-/
namespace MarkupArena

structure ArenaOptions where
  schema : Schema := Schema.html
  validate : Bool := true
  traceConstruction : Bool := false
  maxNodes : Option Number := none
  deriving DecidableEq, Repr

/-- An append-only store of nodes. A reset drops them all and starts the next generation. Handles
into a linked arena resolve as well. -/
structure Arena where
  options : ArenaOptions
  listener : Option Listener
  generation : Nat := 0
  nodes : Array Node := #[]
  links : List ArenaId := []
  deriving DecidableEq, Repr

namespace Arena

def size (arena : Arena) : Nat := arena.nodes.size

/-- The node in a slot. -/
def nodeAt? (arena : Arena) (slot : Coordinate) : Option Node :=
  match slot with
  | .count n => arena.nodes[n]?
  | .stray _ => none

/-- The node limit, if storing one more node would exceed it. -/
def exceededLimit? (arena : Arena) : Option Number :=
  arena.options.maxNodes.filter fun limit => limit.ltNat (arena.size + 1)

def push (arena : Arena) (node : Node) : Arena := { arena with nodes := arena.nodes.push node }

def addLink (arena : Arena) (source : ArenaId) : Arena :=
  { arena with links := arena.links ++ [source] }

/-- The next generation: no nodes and no links. -/
def next (arena : Arena) : Arena :=
  { arena with generation := arena.generation + 1, nodes := #[], links := [] }

end Arena

/-- Pools and caches, by their place in a world. -/
structure PoolId where
  index : Nat
  deriving DecidableEq, Repr

structure CacheId where
  index : Nat
  deriving DecidableEq, Repr

structure PoolOptions where
  arena : ArenaOptions := {}
  maxIdle : Number := Number.ofNat 16
  maxGenerations : Number := Number.ofNat 20
  deriving DecidableEq, Repr

/-- Arenas that are lent out and given back; `idle` has the next one to lend first. -/
structure Pool where
  options : PoolOptions
  listener : Option Listener
  idle : List ArenaId := []
  leased : List ArenaId := []
  deriving DecidableEq, Repr

/-- `stored` counts the nodes that were ever stored, in any arena. A child is stored before its
parent, so no tree is deeper than this. -/
structure World where
  arenas : Array Arena := #[]
  pools : Array Pool := #[]
  caches : Array Cache := #[]
  /-- How many events each listener was told of. -/
  delivered : Array Nat := #[]
  log : Array Delivery := #[]
  stored : Nat := 0

abbrev Action := ExceptT Failure (StateM World)

namespace World

/-- What stands for an arena that was never opened. -/
def noArena : Arena := { options := {}, listener := none }

def arena (w : World) (a : ArenaId) : Arena := w.arenas.getD a.index noArena

/-- Changes an arena where it stands, so that storing a node does not copy those before it. -/
def modifyArena (w : World) (a : ArenaId) (change : Arena → Arena) : World :=
  { w with arenas := w.arenas.modify a.index change }

def noPool : Pool := { options := {}, listener := none }

def pool (w : World) (p : PoolId) : Pool := w.pools.getD p.index noPool

def setPool (w : World) (p : PoolId) (pool : Pool) : World :=
  { w with pools := w.pools.setIfInBounds p.index pool }

def cache (w : World) (c : CacheId) : Cache := w.caches.getD c.index (Cache.empty none)

def setCache (w : World) (c : CacheId) (cache : Cache) : World :=
  { w with caches := w.caches.setIfInBounds c.index cache }

/-- Tells a listener of an event under its next number. -/
def deliver (w : World) (listener : Listener) (event : Event) : World :=
  let seq := w.delivered.getD listener.index 0 + 1
  { w with
    delivered := w.delivered.setIfInBounds listener.index seq
    log := w.log.push ⟨listener, seq, event⟩ }

/-- Tells the listener, if there is one. -/
def tell (w : World) (listener : Option Listener) (event : Event) : World :=
  match listener with
  | some l => w.deliver l event
  | none => w

/-- An upper bound for the depth of every tree, one more than there can be levels. -/
def depthBound (w : World) : Nat := w.stored + 1

end World

theorem World.arena_modifyArena_self (w : World) (a : ArenaId) (change : Arena → Arena)
    (h : a.index < w.arenas.size) : (w.modifyArena a change).arena a = change (w.arena a) := by
  simp [World.modifyArena, World.arena, Array.getD_eq_getD_getElem?, Array.getElem_modify, h]

theorem World.arena_modifyArena_of_ne (w : World) {a b : ArenaId} (change : Arena → Arena)
    (h : b ≠ a) : (w.modifyArena a change).arena b = w.arena b := by
  have hi : a.index ≠ b.index := fun he => h (congrArg ArenaId.mk he.symm)
  simp [World.modifyArena, World.arena, Array.getD_eq_getD_getElem?, Array.getElem?_modify, hi]

/-- Telling a listener changes no arena. -/
@[simp] theorem World.arenas_tell (w : World) (listener : Option Listener) (event : Event) :
    (w.tell listener event).arenas = w.arenas := by
  cases listener <;> rfl

/-- The outcome of a look at the world, as an action. -/
def observe {α : Type} (look : World → Except Failure α) : Action α := do
  match look (← get) with
  | .ok value => return value
  | .error failure => throw failure

/-- Adds a listener that has heard nothing yet. -/
def addListener : Action Listener := do
  let w ← get
  set { w with delivered := w.delivered.push 0 }
  return ⟨w.delivered.size⟩

def openArena (options : ArenaOptions) (listener : Option Listener) : Action ArenaId := do
  let w ← get
  set { w with arenas := w.arenas.push { options, listener } }
  return ⟨w.arenas.size⟩

end MarkupArena
