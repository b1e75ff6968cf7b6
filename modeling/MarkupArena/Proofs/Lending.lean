import MarkupArena.Proofs.Placing

/-! What a holder can rely on: nobody else was lent the arena, and once a pool has let go of an
arena, nobody is lent it again. -/
namespace MarkupArena

namespace World

variable {w w' : World}

/-- A pool lends an arena that nobody holds, and lends only that. -/
theorem Placed.acquire (hw : w.Placed) {p : PoolId} (hp : p.index < w.pools.size) :
    ∃ a w', perform (MarkupArena.acquire p) w = (.ok a, w') ∧ (∀ q, a ∉ (w.pool q).leased) ∧
      (w'.pool p).leased = (w.pool p).leased ++ [a] ∧ ∀ q, q ≠ p → w'.pool q = w.pool q := by
  rw [perform_acquire]
  cases hidle : (w.pool p).idle with
  | nil =>
    refine ⟨_, _, rfl, fun q hq => ?_, ?_, fun q hq => ?_⟩
    · exact absurd (hw.opened q _ (List.mem_append_right _ hq)) (lt_irrefl _)
    · rw [pool_lend]
      exact congrArg Pool.leased (if_pos ⟨rfl, hp⟩)
    · rw [pool_lend, if_neg fun h => hq h.1.symm]
      rfl
  | cons a rest =>
    refine ⟨a, _, rfl, ?_, ?_, fun q hq => ?_⟩
    · exact hw.not_leased (hidle ▸ List.mem_cons_self)
    · rw [pool_lend, if_pos ⟨rfl, hp⟩]
    · rw [pool_lend, if_neg fun h => hq h.1.symm]

theorem Adrift.ne_of_acquire {a : ArenaId} (ha : w.Adrift a) {q : PoolId} {b : ArenaId}
    (hrun : perform (MarkupArena.acquire q) w = (.ok b, w')) : b ≠ a := by
  rintro rfl
  rw [perform_acquire] at hrun
  cases hidle : (w.pool q).idle with
  | nil =>
    simp only [hidle, Prod.mk.injEq, Except.ok.injEq] at hrun
    obtain ⟨rfl, -⟩ := hrun
    exact absurd ha.opened (lt_irrefl _)
  | cons c rest =>
    simp only [hidle, Prod.mk.injEq, Except.ok.injEq] at hrun
    obtain ⟨rfl, -⟩ := hrun
    exact ha.apart q (List.mem_append_left _ (hidle ▸ List.mem_cons_self))

section
variable {p : PoolId} {a : ArenaId} (hw : w.Placed) (ha : a ∈ (w.pool p).leased)
include hw ha

theorem Placed.generation_takeBack :
    ((w.takeBack p a).arena a).generation = (w.arena a).generation + 1 := by
  have hopened := hw.opened p a (List.mem_append_right _ ha)
  rw [arena_congr (w.arenas_takeBack p a), arena_modifyArena_self w a _ hopened]
  rfl

theorem Placed.pool_release : ((w.takeBack p a).putAway p a).pool p =
    { w.pool p with
      idle := if (w.pool p).outcome ((w.arena a).generation + 1) = .pooled then
          a :: (w.pool p).idle
        else (w.pool p).idle
      leased := (w.pool p).leased.erase a } := by
  have hp := lt_of_mem_members (List.mem_append_right _ ha)
  rw [pool_returned, if_pos ⟨rfl, hp⟩, hw.generation_takeBack ha]

/-- An arena that was taken back lies idle exactly if it is pooled. -/
theorem Placed.mem_idle_release : a ∈ (((w.takeBack p a).putAway p a).pool p).idle ↔
    (w.pool p).outcome ((w.arena a).generation + 1) = .pooled := by
  rw [hw.pool_release ha]
  dsimp only
  split
  next hpooled => exact iff_of_true List.mem_cons_self hpooled
  next hdropped => exact iff_of_false (fun hidle => hw.not_leased hidle p ha) hdropped

/-- An arena that is not pooled is let go of. -/
theorem Placed.adrift_release (hdropped : a ∉ (((w.takeBack p a).putAway p a).pool p).idle) :
    ((w.takeBack p a).putAway p a).Adrift a := by
  have hmember : a ∈ (w.pool p).members := List.mem_append_right _ ha
  have htransfer : w.Transfer ((w.takeBack p a).putAway p a) := .takeBack ha
  refine ⟨htransfer.opened (hw.opened p a hmember), fun q hq => ?_⟩
  by_cases hqp : q = p
  · subst hqp
    rcases List.mem_append.mp hq with hidle | hleased
    · exact hdropped hidle
    · obtain ⟨-, hnodup, -⟩ := List.nodup_append.mp (hw.nodup q)
      rw [hw.pool_release ha] at hleased
      exact hnodup.not_mem_erase hleased
  · have hsame : ((w.takeBack p a).putAway p a).pool q = w.pool q := by
      rw [pool_returned, if_neg fun h => hqp h.1.symm]
    rw [hsame] at hq
    exact hqp (hw.apart q p a hq hmember)

end

/-- Whatever clients do with the arenas in between, a pool lends no arena that somebody holds. It
keeps idle arenas apart from lent ones and no more of them than it may, none that is worn out, and
never lends again what it has let go of. Giving back what it has not lent changes nothing. -/
theorem one_holder (hw : w.Reachable) {p : PoolId} (hp : p.index < w.pools.size) :
    ((w.pool p).idle.Nodup ∧ ∀ a ∈ (w.pool p).idle, ∀ q, a ∉ (w.pool q).leased) ∧
    (∀ bound, (w.pool p).options.maxIdle.nat? = some bound → (w.pool p).idle.length ≤ bound) ∧
    (∃ a w', perform (MarkupArena.acquire p) w = (.ok a, w') ∧ (∀ q, a ∉ (w.pool q).leased) ∧
      (w'.pool p).leased = (w.pool p).leased ++ [a] ∧ ∀ q, q ≠ p → w'.pool q = w.pool q) ∧
    (∀ a ∈ (w.pool p).leased, ∃ w', perform (release p a) w = (.ok ⟨⟩, w') ∧
      (w'.arena a).generation = (w.arena a).generation + 1 ∧
      (a ∈ (w'.pool p).idle ↔ (w.pool p).outcome (w'.arena a).generation = .pooled) ∧
      (∀ generation ≤ (w'.arena a).generation,
        (w.pool p).options.maxGenerations.leNat generation → a ∉ (w'.pool p).idle) ∧
      (a ∉ (w'.pool p).idle → ∀ w'' q b v, w'.Leads w'' →
        perform (MarkupArena.acquire q) w'' = (.ok b, v) → b ≠ a)) ∧
    ∀ a, a ∉ (w.pool p).leased → perform (release p a) w = (.error (.notLeased a), w) := by
  have hplaced := hw.placed
  have hnodup := List.nodup_append.mp (hplaced.nodup p)
  refine ⟨⟨hnodup.1, fun a ha => hplaced.not_leased ha⟩, hw.capped p, hplaced.acquire hp,
    fun a ha => ?_, fun a ha => perform_release_of_not_mem ha⟩
  have hgen : (((w.takeBack p a).putAway p a).arena a).generation = (w.arena a).generation + 1 := by
    rw [arena_congr (arenas_putAway ..)]
    exact hplaced.generation_takeBack ha
  refine ⟨_, perform_release ha, hgen, ?_, ?_, ?_⟩
  · rw [hgen]
    exact hplaced.mem_idle_release ha
  · intro generation hle hworn hidle
    rw [hgen] at hle
    have hlater := Number.leNat_mono hworn hle
    exact Pool.outcome_ne_pooled hlater ((hplaced.mem_idle_release ha).mp hidle)
  · intro hdropped w'' q b v hleads hrun
    have hadrift := hplaced.adrift_release ha hdropped
    exact (hleads.transfers.adrift hadrift).ne_of_acquire hrun

end World

/-- Lends two arenas of a pool that keeps only one and takes the first back. -/
def lendTwice : Session Unit Unit := do
  let p ← monadLift (openPool { maxIdle := .ofNat 1 } none)
  let a ← monadLift (acquire p)
  let _ ← monadLift (acquire p)
  monadLift (release p a)

def lentPool : World := (perform lendTwice ({}, ())).2.1

theorem reachable_lentPool : lentPool.Reachable := by
  refine ⟨Unit, Unit, lendTwice, (), (), _, ?_, rfl⟩
  refine .andThen (.call (.openPool _ _)) fun p => ?_
  refine .andThen (.call (.acquire _)) fun a => ?_
  exact .andThen (.call (.acquire _)) fun _ => .call (.release _ _)

/-- The pool is full when the second arena is given back, which is never lent again. -/
theorem one_holder_of_lentPool : ∃ w', lentPool.Reachable ∧ 0 < lentPool.pools.size ∧
    (lentPool.pool ⟨0⟩).idle = [⟨0⟩] ∧ (lentPool.pool ⟨0⟩).idle.length ≤ 1 ∧
    perform (release ⟨0⟩ ⟨1⟩) lentPool = (.ok ⟨⟩, w') ∧
    (∀ w'' q b v, w'.Leads w'' → perform (acquire q) w'' = (.ok b, v) → b ≠ ⟨1⟩) ∧
    perform (release ⟨0⟩ ⟨0⟩) lentPool = (.error (.notLeased ⟨0⟩), lentPool) := by
  have hidle : (lentPool.pool ⟨0⟩).idle = [⟨0⟩] := by decide
  have hleased : (lentPool.pool ⟨0⟩).leased = [⟨1⟩] := by decide
  obtain ⟨-, hcapped, -, hrelease, hrefused⟩ :=
    World.one_holder reachable_lentPool (p := ⟨0⟩) (by decide)
  obtain ⟨w', hrun, hgen, hpooled, -, hgone⟩ := hrelease ⟨1⟩ (hleased ▸ List.mem_singleton.mpr rfl)
  have hdropped : (⟨1⟩ : ArenaId) ∉ (w'.pool ⟨0⟩).idle := by
    rw [hpooled, hgen]
    decide
  refine ⟨w', reachable_lentPool, by decide, hidle, hcapped 1 (by decide), hrun, hgone hdropped, ?_⟩
  apply hrefused
  rw [hleased]
  decide

end MarkupArena
