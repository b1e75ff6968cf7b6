import MarkupArena.Number.Basic
import MarkupArena.World.Node
/-!
A bounded store of rendered markup by key. Entries are kept in order of last use, the least recent
first, which is the first to go when there are too many.
-/
namespace MarkupArena

structure Cache where
  maxEntries : Nat
  entries : List (String × Rendered)
  hits : Nat
  misses : Nat
  deriving DecidableEq, Repr

namespace Cache

def defaultMaxEntries : Nat := 256

/-- The bound for a requested size: its integer part, at least one. A size that is not finite counts
as no request. -/
def boundFor (requested : Option Number) : Nat :=
  match requested.bind Number.floor? with
  | some n => max 1 n.toNat
  | none => defaultMaxEntries

def empty (requested : Option Number) : Cache := ⟨boundFor requested, [], 0, 0⟩

def size (cache : Cache) : Nat := cache.entries.length

def peek? (cache : Cache) (key : String) : Option Rendered :=
  (cache.entries.find? fun entry => entry.1 == key).map Prod.snd

def has (cache : Cache) (key : String) : Bool := (cache.peek? key).isSome

def without (entries : List (String × Rendered)) (key : String) : List (String × Rendered) :=
  entries.filter fun entry => entry.1 != key

/-- Looks a key up and makes it the most recently used. -/
def get (cache : Cache) (key : String) : Option Rendered × Cache :=
  match cache.peek? key with
  | some markup =>
    (some markup, { cache with entries := without cache.entries key ++ [(key, markup)] })
  | none => (none, cache)

/-- Looks a key up and counts a hit or a miss. -/
def lookup (cache : Cache) (key : String) : Option Rendered × Cache :=
  match cache.get key with
  | (some markup, cache) => (some markup, { cache with hits := cache.hits + 1 })
  | (none, cache) => (none, { cache with misses := cache.misses + 1 })

/-- Drops the least recently used entries beyond the bound. -/
def trim (cache : Cache) : Cache :=
  { cache with entries := cache.entries.drop (cache.entries.length - cache.maxEntries) }

/-- Stores under a key as the most recently used entry. -/
def set (cache : Cache) (key : String) (markup : Rendered) : Cache :=
  trim { cache with entries := without cache.entries key ++ [(key, markup)] }

def delete (cache : Cache) (key : String) : Bool × Cache :=
  (cache.has key, { cache with entries := without cache.entries key })

def clear (cache : Cache) : Cache := { cache with entries := [] }

end Cache

end MarkupArena
