import Mathlib.Data.List.Perm.Subperm
import MarkupArena.Proofs.Transfers

/-! Where the arenas of pools are: each idle or lent in one pool, once. No pool keeps more idle
arenas than it may, or takes an arena that was let go of. -/
namespace MarkupArena

namespace Number

/-- A number that is a natural number is compared as one. -/
theorem leNat_iff_of_nat? {x : Number} {bound : Nat} (hx : x.nat? = some bound) (n : Nat) :
    x.leNat n = true ↔ bound ≤ n := by
  cases x with
  | infinite negative => cases hx
  | nan => cases hx
  | finite negative mantissa exponent =>
    simp only [nat?] at hx
    split_ifs at hx with hzero hnegative hexp hdvd <;> obtain rfl := Option.some.inj hx
    · simp [leNat, hzero]
    · simp [leNat, hzero, hnegative, Int.not_lt.mpr hexp]
    · have hscale : bit exponent.natAbs ≠ 0 := (Nat.pow_pos (by decide)).ne'
      have hquotient : mantissa / bit exponent.natAbs ≤ n ↔ mantissa ≤ n * bit exponent.natAbs :=
        Nat.div_le_iff_le_mul_of_dvd hscale (Nat.dvd_of_mod_eq_zero hdvd)
      simp [leNat, hzero, hnegative, Int.not_le.mp hexp, hquotient]

theorem leNat_mono {x : Number} {m n : Nat} (hx : x.leNat m = true) (hmn : m ≤ n) :
    x.leNat n = true := by
  cases x with
  | infinite negative => exact hx
  | nan => cases hx
  | finite negative mantissa exponent =>
    simp only [leNat, Bool.or_eq_true] at hx ⊢
    refine hx.imp id fun h => ?_
    split_ifs at h ⊢ with hexp <;> simp only [decide_eq_true_eq] at h ⊢
    · exact h.trans (Nat.mul_le_mul_right _ hmn)
    · exact h.trans hmn

end Number

namespace Pool

/-- The arenas of a pool, idle or lent. -/
def members (pool : Pool) : List ArenaId := pool.idle ++ pool.leased

/-- A pool keeps no more idle arenas than it may, where that is a natural number. -/
def Capped (pool : Pool) : Prop :=
  ∀ bound, pool.options.maxIdle.nat? = some bound → pool.idle.length ≤ bound

/-- What one transfer makes of a pool: it stays, or was empty and gets its options, or lends an
arena, which is the first idle one or a new one, or takes one back. -/
inductive Turns (new back : ArenaId → Prop) (pool : Pool) : Pool → Prop where
  | stay : Turns new back pool pool
  | start (options : PoolOptions) (listener : Option Listener) (empty : pool.members = []) :
      Turns new back pool { options, listener }
  | lendIdle {a : ArenaId} {rest : List ArenaId} (idle : pool.idle = a :: rest) :
      Turns new back pool { pool with idle := rest, leased := pool.leased ++ [a] }
  | lendNew {a : ArenaId} (idle : pool.idle = []) (isNew : new a) :
      Turns new back pool { pool with idle := [], leased := pool.leased ++ [a] }
  | takeBack {a : ArenaId} (generation : Nat) (leased : a ∈ pool.leased) (isBack : back a) :
      Turns new back pool { pool with
        idle := if pool.outcome generation = .pooled then a :: pool.idle else pool.idle
        leased := pool.leased.erase a }

theorem lt_of_outcome {pool : Pool} {generation bound : Nat}
    (hpooled : pool.outcome generation = .pooled)
    (hbound : pool.options.maxIdle.nat? = some bound) : pool.idle.length < bound := by
  by_contra hfull
  have hle : pool.options.maxIdle.leNat pool.idle.length = true :=
    (Number.leNat_iff_of_nat? hbound _).mpr (Nat.not_lt.mp hfull)
  unfold outcome at hpooled
  rw [if_pos hle] at hpooled
  split at hpooled <;> cases hpooled

/-- An arena that is worn out is not kept. -/
theorem outcome_ne_pooled {pool : Pool} {generation : Nat}
    (hworn : pool.options.maxGenerations.leNat generation = true) :
    pool.outcome generation ≠ .pooled := by
  unfold outcome
  rw [if_pos hworn]
  decide

namespace Turns

variable {new back : ArenaId → Prop} {pool pool' : Pool} (h : pool.Turns new back pool')
include h

theorem capped (hpool : pool.Capped) : pool'.Capped := by
  intro bound hbound
  cases h with
  | stay => exact hpool bound hbound
  | start => exact Nat.zero_le _
  | lendIdle idle =>
    have hle := hpool bound hbound
    rw [idle] at hle
    exact (Nat.le_succ _).trans hle
  | lendNew => exact Nat.zero_le _
  | takeBack generation leased isBack =>
    dsimp only
    split
    next hpooled => exact lt_of_outcome hpooled hbound
    next => exact hpool bound hbound

/-- A pool loses arenas, or gets a new one. -/
theorem members : pool'.members.Subperm pool.members ∨
    ∃ a, new a ∧ pool'.members.Subperm (a :: pool.members) := by
  cases h with
  | stay => exact .inl (.refl _)
  | start options listener => exact .inl List.nil_subperm
  | @lendIdle a rest idle =>
    left
    have hperm : (rest ++ (pool.leased ++ [a])).Perm (a :: (rest ++ pool.leased)) := by
      rw [← List.append_assoc]
      exact List.perm_append_singleton a _
    unfold Pool.members
    rw [idle]
    exact hperm.subperm
  | @lendNew a idle isNew =>
    right
    refine ⟨a, isNew, ?_⟩
    unfold Pool.members
    rw [idle]
    exact (List.perm_append_singleton a pool.leased).subperm
  | @takeBack a generation leased isBack =>
    left
    unfold Pool.members
    dsimp only
    split
    next =>
      have hfront : (a :: (pool.idle ++ pool.leased.erase a)).Perm
          (pool.idle ++ a :: pool.leased.erase a) := List.perm_middle.symm
      have hback : (pool.idle ++ a :: pool.leased.erase a).Perm (pool.idle ++ pool.leased) :=
        (List.perm_cons_erase leased).symm.append_left _
      exact (hfront.trans hback).subperm
    next => exact (List.erase_sublist.append_left _).subperm

theorem mem_members {a : ArenaId} (ha : a ∈ pool'.members) : a ∈ pool.members ∨ new a := by
  rcases h.members with hsub | ⟨b, hb, hsub⟩
  · exact .inl (hsub.subset ha)
  · rcases List.mem_cons.mp (hsub.subset ha) with rfl | ha
    · exact .inr hb
    · exact .inl ha

theorem nodup (hnodup : pool.members.Nodup) (hnew : ∀ a, new a → a ∉ pool.members) :
    pool'.members.Nodup := by
  rcases h.members with ⟨l, hperm, hsub⟩ | ⟨a, ha, l, hperm, hsub⟩
  · exact hperm.nodup_iff.mp (hsub.nodup hnodup)
  · have hcons : (a :: pool.members).Nodup := List.nodup_cons.mpr ⟨hnew a ha, hnodup⟩
    exact hperm.nodup_iff.mp (hsub.nodup hcons)

theorem mem_idle {a : ArenaId} (ha : a ∈ pool'.idle) :
    a ∈ pool.idle ∨ a ∈ pool.leased ∧ back a := by
  cases h with
  | stay => exact .inl ha
  | start => cases ha
  | lendIdle idle => exact .inl (idle ▸ List.mem_cons_of_mem _ ha)
  | lendNew => cases ha
  | takeBack generation leased isBack =>
    dsimp only at ha
    split at ha
    next =>
      rcases List.mem_cons.mp ha with rfl | ha
      · exact .inr ⟨leased, isBack⟩
      · exact .inl ha
    next => exact .inl ha

/-- A pool with arenas has the options it had. -/
theorem options_eq {a : ArenaId} (ha : a ∈ pool'.members) : pool'.options = pool.options := by
  cases h with
  | start => cases ha
  | stay => rfl
  | lendIdle => rfl
  | lendNew => rfl
  | takeBack => rfl

end Turns

end Pool

namespace World

variable {w w' : World}

theorem lt_of_mem_members {w : World} {p : PoolId} {a : ArenaId} (h : a ∈ (w.pool p).members) :
    p.index < w.pools.size := by
  by_contra hp
  rw [World.pool, Array.getD_eq_getD_getElem?, Array.getElem?_eq_none (Nat.not_lt.mp hp)] at h
  cases h

theorem pool_openPool (w : World) (options : PoolOptions) (listener : Option Listener)
    (q : PoolId) : ({ w with pools := w.pools.push { options, listener } } : World).pool q =
      if q.index = w.pools.size then { options, listener } else w.pool q := by
  simp only [World.pool, Array.getD_eq_getD_getElem?, Array.getElem?_push]
  split <;> rfl

theorem pool_openPool_of_lt (w : World) (options : PoolOptions) (listener : Option Listener)
    {q : PoolId} (hq : q.index < w.pools.size) :
    ({ w with pools := w.pools.push { options, listener } } : World).pool q = w.pool q :=
  (w.pool_openPool options listener q).trans (if_neg (Nat.ne_of_lt hq))

namespace Transfer

theorem opened (h : w.Transfer w') {a : ArenaId} (ha : w.Opened a) : w'.Opened a := by
  cases h with
  | aside pools opened => exact opened a ha
  | openPool options listener => exact ha
  | lendIdle idle => exact (opened_congr (arenas_lend ..)).mpr ha
  | lendNew idle =>
    exact (opened_congr (arenas_lend ..)).mpr ((Growth.openArena _ _).grows.opened a ha)
  | @takeBack p b leased =>
    have hnext : (w.takeBack p b).Opened a :=
      (opened_congr (w.arenas_takeBack p b)).mpr (opened_modifyArena.mpr ha)
    exact (opened_congr (arenas_putAway ..)).mpr hnext

/-- Every pool turns. Only one gets an arena that was not opened before, made with its options, and
an arena that is taken back starts over. -/
theorem turns (h : w.Transfer w') : ∃ p, ∀ q, (w.pool q).Turns
    (fun a => q = p ∧ ¬ w.Opened a ∧ w'.Opened a ∧
      (w'.arena a).options = (w.pool q).options.arena)
    (fun a => w.Opened a → w'.arena a = (w.arena a).next) (w'.pool q) := by
  cases h with
  | aside pools opened =>
    refine ⟨⟨0⟩, fun q => ?_⟩
    rw [pool_congr pools]
    exact .stay
  | openPool options listener =>
    refine ⟨⟨0⟩, fun q => ?_⟩
    rw [pool_openPool]
    split
    next hq =>
      refine .start options listener (List.eq_nil_iff_forall_not_mem.mpr fun a ha => ?_)
      exact absurd (lt_of_mem_members ha) (Nat.not_lt.mpr hq.ge)
    next => exact .stay
  | @lendIdle p a rest idle =>
    refine ⟨p, fun q => ?_⟩
    rw [pool_lend]
    split
    next hq =>
      obtain ⟨rfl, -⟩ := hq
      exact .lendIdle idle
    next => exact .stay
  | @lendNew p idle =>
    refine ⟨p, fun q => ?_⟩
    rw [pool_lend]
    split
    next hq =>
      obtain ⟨rfl, -⟩ := hq
      refine .lendNew idle ⟨rfl, lt_irrefl _, ?_, ?_⟩
      · exact (opened_congr (arenas_lend ..)).mpr (w.opened_opening _ _)
      · rw [arena_congr (arenas_lend ..), arena_opening, if_pos rfl]
    next => exact .stay
  | @takeBack p a leased =>
    refine ⟨p, fun q => ?_⟩
    rw [pool_returned]
    split
    next hq =>
      obtain ⟨rfl, -⟩ := hq
      refine .takeBack _ leased fun ha => ?_
      rw [arena_congr (arenas_putAway ..), arena_congr (w.arenas_takeBack p a)]
      exact w.arena_modifyArena_self a Arena.next ha
    next => exact .stay

end Transfer

/-- The arenas of pools were opened, and each is in one place. -/
structure Placed (w : World) : Prop where
  opened : ∀ p, ∀ a ∈ (w.pool p).members, w.Opened a
  nodup : ∀ p, (w.pool p).members.Nodup
  apart : ∀ p q a, a ∈ (w.pool p).members → a ∈ (w.pool q).members → p = q

/-- An arena that was opened and that no pool has. -/
structure Adrift (w : World) (a : ArenaId) : Prop where
  opened : w.Opened a
  apart : ∀ p, a ∉ (w.pool p).members

theorem placed_empty : Placed {} :=
  ⟨fun _ _ h => (List.not_mem_nil h).elim, fun _ => List.nodup_nil,
    fun _ _ _ h => (List.not_mem_nil h).elim⟩

theorem Placed.transfer (hw : w.Placed) (h : w.Transfer w') : w'.Placed := by
  obtain ⟨p, hturns⟩ := h.turns
  constructor
  · intro q a ha
    rcases (hturns q).mem_members ha with hold | ⟨-, -, hopened, -⟩
    · exact h.opened (hw.opened q a hold)
    · exact hopened
  · intro q
    apply (hturns q).nodup (hw.nodup q)
    rintro a ⟨-, hnew, -⟩ ha
    exact hnew (hw.opened q a ha)
  · intro q r a hq hr
    rcases (hturns q).mem_members hq with hq | ⟨rfl, hnew, -⟩
    · rcases (hturns r).mem_members hr with hr | ⟨-, hnew, -⟩
      · exact hw.apart q r a hq hr
      · exact absurd (hw.opened q a hq) hnew
    · rcases (hturns r).mem_members hr with hr | ⟨rfl, -, -⟩
      · exact absurd (hw.opened r a hr) hnew
      · rfl

/-- No pool takes an arena that all have let go of. -/
theorem Adrift.transfer {a : ArenaId} (ha : w.Adrift a) (h : w.Transfer w') : w'.Adrift a := by
  obtain ⟨p, hturns⟩ := h.turns
  refine ⟨h.opened ha.opened, fun q hq => ?_⟩
  rcases (hturns q).mem_members hq with hq | ⟨-, hnew, -⟩
  · exact ha.apart q hq
  · exact hnew ha.opened

theorem capped_transfer (hw : ∀ p, (w.pool p).Capped) (h : w.Transfer w') :
    ∀ p, (w'.pool p).Capped := by
  obtain ⟨p, hturns⟩ := h.turns
  exact fun q => (hturns q).capped (hw q)

/-- An idle arena is lent by no pool. -/
theorem Placed.not_leased (hw : w.Placed) {p : PoolId} {a : ArenaId} (ha : a ∈ (w.pool p).idle)
    (q : PoolId) : a ∉ (w.pool q).leased := by
  intro hq
  obtain rfl := hw.apart p q a (List.mem_append_left _ ha) (List.mem_append_right _ hq)
  obtain ⟨-, -, hdisjoint⟩ := List.nodup_append.mp (hw.nodup p)
  exact hdisjoint a ha a hq rfl

theorem Transfers.placed (h : w.Transfers w') (hw : w.Placed) : w'.Placed := by
  induction h with
  | refl => exact hw
  | tail _ hstep ih => exact ih.transfer hstep

theorem Transfers.adrift (h : w.Transfers w') {a : ArenaId} (ha : w.Adrift a) : w'.Adrift a := by
  induction h with
  | refl => exact ha
  | tail _ hstep ih => exact ih.transfer hstep

theorem Transfers.capped (h : w.Transfers w') (hw : ∀ p, (w.pool p).Capped) (p : PoolId) :
    (w'.pool p).Capped := by
  induction h generalizing p with
  | refl => exact hw p
  | tail _ hstep ih => exact capped_transfer ih hstep p

theorem Reachable.placed (hw : w.Reachable) : w.Placed := (Leads.transfers hw).placed placed_empty

theorem Reachable.capped (hw : w.Reachable) (p : PoolId) : (w.pool p).Capped :=
  (Leads.transfers hw).capped (fun _ _ _ => Nat.zero_le _) p

end World

end MarkupArena
