import MarkupArena.Number.Text
/-!
Names of arenas and of the nodes stored in them. An arena's number counts from one and is never
given out again; a handle names a slot of one generation of an arena. Handles are things of their
own: two may name one slot and still be told apart.
-/
namespace MarkupArena

/-- An arena, by its place among all arenas of a world. -/
structure ArenaId where
  index : Nat
  deriving DecidableEq, Repr

def ArenaId.number (a : ArenaId) : Nat := a.index + 1

/-- A part of a handle. The handles that arenas give out hold counts; a handle may also be made up
of any other numbers, which name nothing. -/
inductive Coordinate where
  | count (n : Nat)
  | stray (x : Number)
  deriving DecidableEq, Repr

namespace Coordinate

/-- Numbers below 2 ^ 53 that count something are counts. -/
def ofNumber (x : Number) : Coordinate :=
  match x.nat? with
  | some n => if n < Number.bit Number.significantBits then count n else stray x
  | none => stray x

def text : Coordinate → String
  | count n => toString n
  | stray x => x.text

/-- Whether a coordinate lies below a bound. Stray ones may lie below it, too. -/
def below (c : Coordinate) (bound : Nat) : Bool :=
  match c with
  | count n => n < bound
  | stray x => x.ltNat bound

end Coordinate

/-- `copy` tells apart the handles with the same numbers. An arena gives out copy 0 of a handle;
the others are made by hand. All of them resolve alike, and none is equal to another. -/
structure Handle where
  arena : Coordinate
  generation : Coordinate
  slot : Coordinate
  copy : Nat := 0
  deriving DecidableEq, Repr

/-- A handle of a slot in a generation of an arena, by default the one that the arena gives out. -/
def ArenaId.handle (a : ArenaId) (generation slot : Nat) (copy : Nat := 0) : Handle :=
  ⟨.count a.number, .count generation, .count slot, copy⟩

def Handle.text (h : Handle) : String :=
  h.arena.text ++ "." ++ h.generation.text ++ "#" ++ h.slot.text

end MarkupArena
