import MarkupArena.World.Handle
/-!
Events that listeners are told of, numbered per listener.
-/
namespace MarkupArena

/-- A listener, by its place among all listeners of a world. -/
structure Listener where
  index : Nat
  deriving DecidableEq, Repr

/-- What becomes of an arena that is given back to its pool. -/
inductive ReleaseOutcome where
  | pooled
  | generationLimit
  | poolFull
  deriving DecidableEq, Repr

inductive Event where
  | reset (arena : ArenaId) (generation nodes : Nat)
  | link (arena source : ArenaId)
  | siteSkipped (arena : ArenaId) (tag : String)
  | acquired (arena : ArenaId) (reused : Bool)
  | released (arena : ArenaId) (outcome : ReleaseOutcome)
  deriving DecidableEq, Repr

/-- An event as one listener received it: its `seq`-th. -/
structure Delivery where
  listener : Listener
  seq : Nat
  event : Event
  deriving DecidableEq, Repr

end MarkupArena
