import MarkupArena.Lease
import MarkupArena.Proofs.Making

/-! What lending an arena and taking it back come to: one statement for each, as for the making of
nodes. -/
namespace MarkupArena

namespace World

theorem pool_congr {w w' : World} (h : w'.pools = w.pools) (p : PoolId) : w'.pool p = w.pool p := by
  simp [World.pool, h]

theorem pool_setPool (w : World) (p q : PoolId) (pool : Pool) :
    (w.setPool p pool).pool q =
      if p = q ∧ p.index < w.pools.size then pool else w.pool q := by
  obtain ⟨i⟩ := p
  obtain ⟨j⟩ := q
  by_cases hij : i = j
  · subst hij
    by_cases hi : i < w.pools.size <;>
      simp [World.pool, setPool, Array.getD_eq_getD_getElem?, hi]
  · simp [World.pool, setPool, Array.getD_eq_getD_getElem?, hij]

/-- A world with one more arena. -/
def opening (w : World) (options : ArenaOptions) (listener : Option Listener) : World :=
  { w with arenas := w.arenas.push { options, listener } }

theorem arena_opening (w : World) (options : ArenaOptions) (listener : Option Listener)
    (a : ArenaId) : (w.opening options listener).arena a =
      if a.index = w.arenas.size then { options, listener } else w.arena a :=
  w.arena_openArena _ a

theorem opened_opening (w : World) (options : ArenaOptions) (listener : Option Listener) :
    (w.opening options listener).Opened ⟨w.arenas.size⟩ := by
  simp [Opened, opening]

/-- A pool with an arena lent, the others it keeps, and the event. -/
def lend (w : World) (p : PoolId) (a : ArenaId) (idle : List ArenaId) (reused : Bool) : World :=
  (w.setPool p { w.pool p with idle, leased := (w.pool p).leased ++ [a] }).tell (w.pool p).listener
    (.acquired a reused)

/-- A pool without an arena that it lent, which starts over. -/
def takeBack (w : World) (p : PoolId) (a : ArenaId) : World :=
  (perform (reset a) (w.setPool p { w.pool p with leased := (w.pool p).leased.erase a })).2

/-- What becomes of an arena that was taken back, and the event. -/
def putAway (w : World) (p : PoolId) (a : ArenaId) : World :=
  let outcome := (w.pool p).outcome (w.arena a).generation
  let idle := if outcome = .pooled then a :: (w.pool p).idle else (w.pool p).idle
  (w.setPool p { w.pool p with idle }).tell (w.pool p).listener (.released a outcome)

section
variable (w : World) (p : PoolId) (a : ArenaId) (idle : List ArenaId) (reused : Bool)

@[simp] theorem arenas_lend : (w.lend p a idle reused).arenas = w.arenas := arenas_tell ..

@[simp] theorem stored_lend : (w.lend p a idle reused).stored = w.stored := stored_tell ..

theorem pool_lend (q : PoolId) : (w.lend p a idle reused).pool q =
    if p = q ∧ p.index < w.pools.size then
      { w.pool p with idle, leased := (w.pool p).leased ++ [a] }
    else w.pool q :=
  (pool_congr (pools_tell ..) q).trans (w.pool_setPool p q _)

theorem arenas_takeBack : (w.takeBack p a).arenas = (w.modifyArena a Arena.next).arenas :=
  arenas_tell ..

theorem pool_takeBack (q : PoolId) : (w.takeBack p a).pool q =
    if p = q ∧ p.index < w.pools.size then
      { w.pool p with leased := (w.pool p).leased.erase a }
    else w.pool q :=
  (pool_congr (pools_tell ..) q).trans (w.pool_setPool p q _)

@[simp] theorem arenas_putAway : (w.putAway p a).arenas = w.arenas := arenas_tell ..

@[simp] theorem stored_putAway : (w.putAway p a).stored = w.stored := stored_tell ..

theorem pool_putAway (q : PoolId) : (w.putAway p a).pool q =
    if p = q ∧ p.index < w.pools.size then
      { w.pool p with
        idle := if (w.pool p).outcome (w.arena a).generation = .pooled then a :: (w.pool p).idle
          else (w.pool p).idle }
    else w.pool q :=
  (pool_congr (pools_tell ..) q).trans (w.pool_setPool p q _)

/-- What a pool is after an arena was given back and put away. -/
theorem pool_returned (q : PoolId) : ((w.takeBack p a).putAway p a).pool q =
    if p = q ∧ p.index < w.pools.size then
      { w.pool p with
        idle := if (w.pool p).outcome ((w.takeBack p a).arena a).generation = .pooled then
            a :: (w.pool p).idle
          else (w.pool p).idle
        leased := (w.pool p).leased.erase a }
    else w.pool q := by
  have hsize : (w.takeBack p a).pools.size = w.pools.size := by
    have hpools : (w.takeBack p a).pools =
        (w.setPool p { w.pool p with leased := (w.pool p).leased.erase a }).pools := pools_tell ..
    rw [hpools]
    exact Array.size_setIfInBounds
  rw [pool_putAway, pool_takeBack, pool_takeBack, hsize]
  by_cases hq : p = q ∧ p.index < w.pools.size
  · obtain ⟨rfl, hp⟩ := hq
    simp only [hp, and_self, if_true]
    rfl
  · simp only [if_neg hq]

end

end World

theorem perform_acquire (w : World) (p : PoolId) : perform (acquire p) w =
    match (w.pool p).idle with
    | a :: rest => (.ok a, w.lend p a rest true)
    | [] => (.ok ⟨w.arenas.size⟩,
      (w.opening (w.pool p).options.arena (w.pool p).listener).lend p ⟨w.arenas.size⟩ []
        false) := by
  unfold acquire
  rw [perform_bind]
  simp only [perform_get]
  cases (w.pool p).idle with
  | nil => rfl
  | cons a rest => rfl

/-- An arena that the pool has lent can be given back. -/
theorem perform_release {w : World} {p : PoolId} {a : ArenaId} (ha : a ∈ (w.pool p).leased) :
    perform (release p a) w = (.ok ⟨⟩, (w.takeBack p a).putAway p a) := by
  unfold release
  rw [perform_bind]
  simp only [perform_get]
  exact congrArg (perform · w) (if_pos ha)

theorem perform_release_of_not_mem {w : World} {p : PoolId} {a : ArenaId}
    (ha : a ∉ (w.pool p).leased) : perform (release p a) w = (.error (.notLeased a), w) := by
  unfold release
  rw [perform_bind]
  simp only [perform_get]
  exact congrArg (perform · w) (if_neg ha)

end MarkupArena
