import MarkupArena.Render.Markup
import MarkupArena.World.Store
/-!
Lending arenas from a pool. An arena that is given back is reset, and lent again unless it is worn
out or the pool is full. Work on a lent arena gives it back also when the work fails.
-/
namespace MarkupArena

def openPool (options : PoolOptions) (listener : Option Listener) : Action PoolId := do
  let w ← get
  set { w with pools := w.pools.push { options, listener } }
  return ⟨w.pools.size⟩

/-- What becomes of an arena of a generation when it is given back. -/
def Pool.outcome (pool : Pool) (generation : Nat) : ReleaseOutcome :=
  if pool.options.maxGenerations.leNat generation then .generationLimit
  else if pool.options.maxIdle.leNat pool.idle.length then .poolFull
  else .pooled

/-- Lends the arena that was given back last, or a new one. -/
def acquire (p : PoolId) : Action ArenaId := do
  let pool := (← get).pool p
  let (a, idle, reused) ← match pool.idle with
    | a :: rest => pure (a, rest, true)
    | [] => do
      let a ← openArena pool.options.arena pool.listener
      pure (a, [], false)
  modify fun w =>
    (w.setPool p { pool with idle, leased := pool.leased ++ [a] }).tell pool.listener
      (.acquired a reused)
  return a

/-- Takes an arena back; only its holder's first release counts. -/
def release (p : PoolId) (a : ArenaId) : Action Unit := do
  let pool := (← get).pool p
  if a ∈ pool.leased then
    modify fun w => w.setPool p { pool with leased := pool.leased.erase a }
    reset a
    modify fun w =>
      let pool := w.pool p
      let outcome := pool.outcome (w.arena a).generation
      let idle := if outcome = .pooled then a :: pool.idle else pool.idle
      (w.setPool p { pool with idle }).tell pool.listener (.released a outcome)
  else throw (.notLeased a)

section
variable {m : Type → Type} [Monad m] [MonadFinally m] [MonadLiftT Action m]

/-- Does some work on a lent arena and gives the arena back, whatever the work comes to. A failure
to give it back takes the place of the work's own. -/
def withArena {α : Type} (p : PoolId) (work : ArenaId → m α) : m α := do
  let a ← monadLift (acquire p)
  try work a
  finally monadLift (release p a)

/-- Builds a document in a lent arena and hands out its markup. -/
def renderDocument (p : PoolId) (withDoctype : Bool) (build : ArenaId → m Handle) : m String :=
  withArena p fun a => do
    let root ← build a
    monadLift (observe fun w => w.render a root withDoctype >>= handOut)

end

end MarkupArena
