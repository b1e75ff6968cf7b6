import MarkupArena.World.Ownership
/-!
Walking a stored tree in document order. A cursor holds the handles still to be visited, and each
step resolves the first one; a handle that does not resolve is met only when its turn comes.
-/
namespace MarkupArena

structure Visited where
  node : Node
  handle : Handle
  depth : Nat
  deriving DecidableEq, Repr

/-- A handle to be visited, with a bound for the depth of what lies under it. -/
structure Pending where
  handle : Handle
  depth : Nat
  bound : Nat
  deriving DecidableEq, Repr

abbrev Cursor := List Pending

namespace Cursor

def start (w : World) (root : Handle) : Cursor := [⟨root, 0, w.depthBound⟩]

def below (node : Node) (depth bound : Nat) : Cursor :=
  node.children.map fun child => ⟨child, depth + 1, bound⟩

/-- Visits the next node, if there is one. Its children come before what was pending. -/
def next (w : World) (a : ArenaId) : Cursor → Except Failure (Option (Visited × Cursor))
  | [] => .ok none
  | ⟨handle, depth, bound⟩ :: rest =>
    match bound, w.resolve a handle with
    | 0, _ => .error .tooDeep
    | _, .error failure => .error failure
    | bound + 1, .ok node => .ok (some (⟨node, handle, depth⟩, below node depth bound ++ rest))

def total (counts : List Nat) : Nat := counts.foldr (· + ·) 0

/-- How many visits a handle leads to, at most. -/
def visits (w : World) (a : ArenaId) : Nat → Handle → Nat
  | 0, _ => 1
  | bound + 1, h =>
    match w.resolve a h with
    | .ok node => 1 + total (node.children.map (visits w a bound))
    | .error _ => 1

def measure (w : World) (a : ArenaId) (cursor : Cursor) : Nat :=
  total (cursor.map fun p => visits w a p.bound p.handle)

theorem total_append (first second : List Nat) :
    total (first ++ second) = total first + total second := by
  induction first with
  | nil => simp [total]
  | cons n rest ih =>
    have step : total (n :: (rest ++ second)) = n + total (rest ++ second) := rfl
    have unstep : total (n :: rest) = n + total rest := rfl
    rw [List.cons_append, step, unstep, ih]
    omega

theorem measure_append (w : World) (a : ArenaId) (first second : Cursor) :
    measure w a (first ++ second) = measure w a first + measure w a second := by
  simp [measure, total_append]

theorem measure_below (w : World) (a : ArenaId) (node : Node) (depth bound : Nat) :
    measure w a (below node depth bound) = total (node.children.map (visits w a bound)) := by
  simp [measure, below, Function.comp_def]

/-- Each step leaves fewer visits to be made. -/
theorem measure_next_lt {w : World} {a : ArenaId} {cursor rest : Cursor} {v : Visited}
    (h : next w a cursor = .ok (some (v, rest))) : measure w a rest < measure w a cursor := by
  match cursor with
  | [] => simp [next] at h
  | ⟨handle, depth, bound⟩ :: pending =>
    match bound with
    | 0 => simp [next] at h
    | bound + 1 =>
      cases hr : w.resolve a handle with
      | error failure => simp [next, hr] at h
      | ok node =>
        simp only [next, hr, Except.ok.injEq, Option.some.injEq, Prod.mk.injEq] at h
        rw [← h.2, measure_append, measure_below]
        have step : measure w a (⟨handle, depth, bound + 1⟩ :: pending) =
            visits w a (bound + 1) handle + measure w a pending := rfl
        rw [step, visits, hr]
        simp only
        omega

/-- Visits at most `limit` nodes and does not look beyond them. -/
def take (w : World) (a : ArenaId) : Nat → Cursor → Except Failure (List Visited)
  | 0, _ => .ok []
  | limit + 1, cursor => do
    match ← next w a cursor with
    | none => return []
    | some (v, rest) => return v :: (← take w a limit rest)

/-- Visits all nodes. Returns those before the first handle that does not resolve, and the failure
there, if any. -/
def walk (w : World) (a : ArenaId) (cursor : Cursor) : List Visited × Option Failure :=
  match _h : next w a cursor with
  | .error failure => ([], some failure)
  | .ok none => ([], none)
  | .ok (some (v, rest)) =>
    let (visited, failure) := walk w a rest
    (v :: visited, failure)
termination_by measure w a cursor
decreasing_by exact measure_next_lt _h

end Cursor

/-- All nodes under a root in document order. -/
def World.walk (w : World) (a : ArenaId) (root : Handle) : Except Failure (List Visited) :=
  match Cursor.walk w a (Cursor.start w root) with
  | (visited, none) => .ok visited
  | (_, some failure) => .error failure

end MarkupArena
