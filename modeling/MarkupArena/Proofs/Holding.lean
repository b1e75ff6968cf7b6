import MarkupArena.Proofs.Lending

/-! Who holds an arena of a pool, told from what clients took and gave back. A pool knows the arenas
that it lent, but not to whom: it refuses what nobody holds and takes back what anybody gives it. -/
namespace MarkupArena

/-- What a client did with an arena of a pool: it was lent it, or the pool took it back. -/
inductive Deal where
  | took (client : Nat) (a : ArenaId)
  | gaveBack (client : Nat) (a : ArenaId)
  deriving DecidableEq, Repr

namespace Deal

/-- The client that was lent an arena last, unless somebody gave it back since. The latest deal
comes first. -/
def holder? (a : ArenaId) : List Deal → Option Nat
  | [] => none
  | took client b :: earlier => if b = a then some client else holder? a earlier
  | gaveBack _ b :: earlier => if b = a then none else holder? a earlier

/-- Who gave an arena back and was not lent it again does not hold it. -/
theorem holder?_ne_of_gaveBack {a : ArenaId} {client : Nat} {later earlier : List Deal}
    (h : took client a ∉ later) :
    holder? a (later ++ gaveBack client a :: earlier) ≠ some client := by
  induction later with
  | nil => simp [holder?]
  | cons deal later ih =>
    have hrest := ih fun hmem => h (List.mem_cons_of_mem _ hmem)
    cases deal with
    | took other b =>
      rw [List.cons_append, holder?]
      split
      next hb =>
        rintro ⟨⟩
        exact h (hb ▸ List.mem_cons_self)
      next => exact hrest
    | gaveBack other b =>
      rw [List.cons_append, holder?]
      split
      · exact (Option.some_ne_none client).symm
      · exact hrest

end Deal

namespace World

/-- Clients deal with a pool in any order. What else happens in between leaves alone what the pool
has lent. -/
inductive Dealings (p : PoolId) (w₀ : World) : List Deal → World → Prop where
  | start : Dealings p w₀ [] w₀
  | took {deals : List Deal} {w w' : World} {a : ArenaId} (client : Nat) :
      Dealings p w₀ deals w → perform (acquire p) w = (.ok a, w') →
      Dealings p w₀ (.took client a :: deals) w'
  | gaveBack {deals : List Deal} {w w' : World} {a : ArenaId} (client : Nat) :
      Dealings p w₀ deals w → perform (release p a) w = (.ok ⟨⟩, w') →
      Dealings p w₀ (.gaveBack client a :: deals) w'
  | between {deals : List Deal} {w w' : World} :
      Dealings p w₀ deals w → w.Transfer w' → (w'.pool p).leased = (w.pool p).leased →
      Dealings p w₀ deals w'

theorem Transfer.pools_size_le {w w' : World} (h : w.Transfer w') :
    w.pools.size ≤ w'.pools.size := by
  have hset : ∀ (v : World) (q : PoolId) (pool : Pool) (listener : Option Listener) (event : Event),
      ((v.setPool q pool).tell listener event).pools.size = v.pools.size := by
    intro v q pool listener event
    rw [pools_tell]
    exact Array.size_setIfInBounds
  cases h with
  | aside pools => rw [pools]
  | openPool options listener => exact (Nat.le_succ _).trans (Array.size_push _).ge
  | lendIdle => exact (hset ..).ge
  | lendNew => exact (hset (w.opening _ _) ..).ge
  | @takeBack p a =>
    have herased : (w.takeBack p a).pools =
        (w.setPool p { w.pool p with leased := (w.pool p).leased.erase a }).pools := pools_tell ..
    have hsize : (w.takeBack p a).pools.size = w.pools.size := by
      rw [herased]
      exact Array.size_setIfInBounds
    exact (hsize.symm.trans (hset ..).symm).le

theorem Transfers.pools_size_le {w w' : World} (h : w.Transfers w') :
    w.pools.size ≤ w'.pools.size := by
  induction h with
  | refl => exact le_rfl
  | tail _ hstep ih => exact ih.trans hstep.pools_size_le

/-- Other pools do not notice what one lends or takes back. -/
theorem pool_acquire_of_ne {w : World} {p q : PoolId} (h : p ≠ q) :
    (perform (acquire p) w).2.pool q = w.pool q := by
  rw [perform_acquire]
  split <;> exact (pool_lend ..).trans (if_neg fun hq => h hq.1)

theorem pool_release_of_ne {w : World} {p q : PoolId} (h : p ≠ q) (a : ArenaId) :
    (perform (release p a) w).2.pool q = w.pool q := by
  by_cases ha : a ∈ (w.pool p).leased
  · rw [perform_release ha]
    exact (pool_returned ..).trans (if_neg fun hq => h hq.1)
  · rw [perform_release_of_not_mem ha]

namespace Dealings

variable {p : PoolId} {w₀ w : World} {deals : List Deal}

theorem transfers (h : Dealings p w₀ deals w) : w₀.Transfers w := by
  induction h with
  | start => exact .refl
  | @took deals w w' a client _ hrun ih =>
    have hstep := w.transfer_acquire p
    rw [hrun] at hstep
    exact ih.tail hstep
  | @gaveBack deals w w' a client _ hrun ih =>
    have hstep := w.transfer_release p a
    rw [hrun] at hstep
    exact ih.tail hstep
  | between _ hstep _ ih => exact ih.tail hstep

/-- A pool has lent exactly the arenas that somebody holds. -/
theorem mem_leased_iff (hw₀ : w₀.Placed) (hp : p.index < w₀.pools.size)
    (hnone : (w₀.pool p).leased = []) (h : Dealings p w₀ deals w) {a : ArenaId} :
    a ∈ (w.pool p).leased ↔ (Deal.holder? a deals).isSome := by
  induction h with
  | start => simp [hnone, Deal.holder?]
  | @took deals w w' b client hbefore hrun ih =>
    obtain ⟨c, v, hlent, -, hleased, -⟩ := (hbefore.transfers.placed hw₀).acquire
      (hp.trans_le hbefore.transfers.pools_size_le)
    rw [hrun] at hlent
    obtain ⟨hb, rfl⟩ := Prod.mk.inj hlent
    obtain rfl := Except.ok.inj hb
    rw [hleased, List.mem_append, ih, List.mem_singleton, Deal.holder?]
    by_cases ha : b = a
    · simp [ha]
    · simp [ha, Ne.symm ha]
  | @gaveBack deals w w' b client hbefore hrun ih =>
    have hplaced := hbefore.transfers.placed hw₀
    have hb : b ∈ (w.pool p).leased := by
      by_contra hb
      rw [perform_release_of_not_mem hb] at hrun
      cases hrun
    rw [perform_release hb] at hrun
    obtain ⟨-, rfl⟩ := Prod.mk.inj hrun
    obtain ⟨-, hnodup, -⟩ := List.nodup_append.mp (hplaced.nodup p)
    rw [hplaced.pool_release hb, hnodup.mem_erase_iff, ih, Deal.holder?]
    by_cases ha : b = a
    · simp [ha]
    · simp [ha, Ne.symm ha]
  | between _ _ hsame ih => rw [hsame, ih]

/-- Whatever operation comes next, it is a deal with the pool or leaves alone what it has lent. -/
theorem operation (hp : p.index < w₀.pools.size) (h : Dealings p w₀ deals w) {α : Type}
    {act : Action α} (hact : Operation act) :
    ∃ deals', Dealings p w₀ deals' (perform act w).2 := by
  have hstep := hact.transfer w
  by_cases hsame : ((perform act w).2.pool p).leased = (w.pool p).leased
  · exact ⟨deals, h.between hstep hsame⟩
  rcases hact.works with ⟨a, hon⟩ | haside
  · have hkept := (keepsBut_of_worksOn hon w w (.refl a w)).1
    exact absurd (congrArg Pool.leased (pool_congr hkept.pools p)) hsame
  cases haside with
  | acquire q =>
    by_cases hq : q = p
    · subst hq
      obtain ⟨a, hrun⟩ : ∃ a, (perform (acquire q) w).1 = .ok a := by
        rw [perform_acquire]
        split <;> exact ⟨_, rfl⟩
      exact ⟨.took 0 a :: deals, h.took 0 (Prod.ext hrun rfl)⟩
    · exact absurd (congrArg Pool.leased (pool_acquire_of_ne hq)) hsame
  | release q a =>
    by_cases hq : q = p
    · subst hq
      by_cases ha : a ∈ (w.pool q).leased
      · rw [perform_release ha]
        exact ⟨.gaveBack 0 a :: deals, h.gaveBack 0 (perform_release ha)⟩
      · rw [perform_release_of_not_mem ha] at hsame
        exact absurd rfl hsame
    · exact absurd (congrArg Pool.leased (pool_release_of_ne hq a)) hsame
  | openPool options listener =>
    have hother : (perform (openPool options listener) w).2.pool p = w.pool p :=
      w.pool_openPool_of_lt options listener (hp.trans_le h.transfers.pools_size_le)
    exact absurd (congrArg Pool.leased hother) hsame
  | look look =>
    rw [perform_observe] at hsame
    exact absurd rfl hsame
  | _ => exact absurd rfl hsame

/-- Whatever clients do can be told as their deals with the pool. -/
theorem of_leads (hp : p.index < w₀.pools.size) (h : w₀.Leads w) :
    ∃ deals, Dealings p w₀ deals w := by
  obtain ⟨σ, α, work, own, own', outcome, hclient, hrun⟩ := h
  have hcall : ∀ {α : Type} {act : Action α}, Operation act →
      Invariant (fun v => ∃ deals, Dealings p w₀ deals v) act := fun hop v ⟨_, hv⟩ =>
    ⟨hv.operation hp hop, fun _ _ => True.intro⟩
  have hstands : ∀ a, StandsAt (fun v => ∃ deals, Dealings p w₀ deals v) (fun _ => True) a := by
    intro a
    apply standsAt_of_allocate
    · exact fun _ _ _ _ _ _ => True.intro
    · rintro v listener event ⟨deals, hv⟩
      have hpools := v.pools_tell listener event
      refine ⟨deals, hv.between (.aside hpools fun b => ?_) (congrArg _ (pool_congr hpools p))⟩
      exact (opened_congr (v.arenas_tell ..)).mpr
    · rintro v source ⟨deals, hv⟩
      exact ⟨deals, hv.between (.aside rfl fun b => opened_modifyArena.mpr) rfl⟩
    · exact fun node => hcall (.allocate a node)
  have hkeeps := hclient.invariant (fun a => (hstands a).revision) hcall
  exact (hkeeps.of_perform (s := (w₀, own)) ⟨⟨[], .start⟩, True.intro⟩ hrun).1

end Dealings

/-- A new pool has lent nothing. -/
theorem opened_openPool {u w₀ : World} (hu : u.Placed) {options : PoolOptions}
    {listener : Option Listener} {p : PoolId}
    (hopen : perform (openPool options listener) u = (.ok p, w₀)) :
    w₀.Placed ∧ p.index < w₀.pools.size ∧ (w₀.pool p).leased = [] := by
  obtain ⟨hp, rfl⟩ := Prod.mk.inj hopen
  obtain rfl := Except.ok.inj hp
  refine ⟨hu.transfer (.openPool options listener), (Array.size_push _).ge, ?_⟩
  exact congrArg Pool.leased ((u.pool_openPool options listener _).trans (if_pos rfl))

/-- A lease ends with the first release. Whatever clients do can be told as their deals with the
pool. By these it takes back what somebody holds and leaves alone what else it has lent and the
arenas of others. Who gave an arena back and was not lent it again is refused unless somebody else
holds it by now, and so is work on a lent arena that gave it back before its end. What is refused
changes nothing. -/
theorem lease_ends_once {u w₀ : World} (hu : u.Reachable) {options : PoolOptions}
    {listener : Option Listener} {p : PoolId}
    (hopen : perform (openPool options listener) u = (.ok p, w₀)) :
    (∀ w, w₀.Leads w → ∃ deals, Dealings p w₀ deals w) ∧
    (∀ deals w a client, Dealings p w₀ deals w → Deal.holder? a deals = some client →
      ∃ w', perform (release p a) w = (.ok ⟨⟩, w') ∧
        (w'.pool p).leased = (w.pool p).leased.erase a ∧ ∀ b, b ≠ a → w'.arena b = w.arena b) ∧
    ∀ later earlier w a client, Dealings p w₀ (later ++ .gaveBack client a :: earlier) w →
      .took client a ∉ later →
      (∀ other, other ≠ client →
        Deal.holder? a (later ++ .gaveBack client a :: earlier) ≠ some other) →
      perform (release p a) w = (.error (.notLeased a), w) ∧
      ∀ {σ β : Type} (work : ArenaId → Session σ β) v v' own outcome own',
        perform (acquire p) v = (.ok a, v') → perform (work a) (v', own) = (outcome, w, own') →
        perform (withArena p work) (v, own) = (.error (.notLeased a), w, own') := by
  obtain ⟨hplaced, hp, hnone⟩ := opened_openPool hu.placed hopen
  refine ⟨fun w hlater => Dealings.of_leads hp hlater, fun deals w a client h hholder => ?_,
    fun later earlier w a client h hlater hother => ?_⟩
  · have ha := (h.mem_leased_iff hplaced hp hnone).mpr (Option.isSome_of_eq_some hholder)
    have hnow := h.transfers.placed hplaced
    refine ⟨_, perform_release ha, ?_, fun b hb => ?_⟩
    · rw [hnow.pool_release ha]
    · rw [arena_congr (arenas_putAway ..), arena_congr (w.arenas_takeBack ..)]
      exact w.arena_modifyArena_of_ne Arena.next hb
  · have hholder : Deal.holder? a (later ++ .gaveBack client a :: earlier) = none := by
      rw [Option.eq_none_iff_forall_ne_some]
      intro other
      by_cases hclient : other = client
      · subst hclient
        exact Deal.holder?_ne_of_gaveBack hlater
      · exact hother other hclient
    have ha : a ∉ (w.pool p).leased := by
      rw [h.mem_leased_iff hplaced hp hnone, hholder]
      exact Bool.false_ne_true
    refine ⟨perform_release_of_not_mem ha, fun work v v' own outcome own' hacquire hwork => ?_⟩
    unfold withArena
    rw [perform_bind, perform_lift, hacquire]
    dsimp only
    rw [perform_tryFinally, hwork]
    simp only [perform_lift, perform_release_of_not_mem ha]

end World

/-- A client was lent an arena of a new pool and stored a text in it. -/
def writtenPool : World :=
  (perform (do allocate (← acquire (← openPool {} none)) (.text "theirs")) {}).2

/-- Another client's work gives its arena back itself. The text of the first is still there. -/
theorem lease_ends_once_of_writtenPool : ∃ w₀ v w,
    World.Reachable {} ∧ perform (openPool {} none) {} = (.ok ⟨0⟩, w₀) ∧
    perform (acquire ⟨0⟩) writtenPool = (.ok ⟨1⟩, v) ∧
    perform (release ⟨0⟩ ⟨1⟩) v = (.ok ⟨⟩, w) ∧
    World.Dealings ⟨0⟩ w₀ [.gaveBack 0 ⟨1⟩, .took 0 ⟨1⟩, .took 1 ⟨0⟩] w ∧
    perform (release ⟨0⟩ ⟨1⟩) w = (.error (.notLeased ⟨1⟩), w) ∧
    perform (withArena ⟨0⟩ fun a => (monadLift (release ⟨0⟩ a) : Session Unit Unit))
      (writtenPool, ()) = (.error (.notLeased ⟨1⟩), w, ()) ∧
    (w.pool ⟨0⟩).leased = [⟨0⟩] ∧ (w.arena ⟨0⟩).nodes = #[.text "theirs"] := by
  have htook : World.Dealings ⟨0⟩ (perform (openPool {} none) {}).2 [.took 1 ⟨0⟩]
      (perform (do acquire (← openPool {} none)) {}).2 := .took 1 .start rfl
  have hwritten : World.Dealings ⟨0⟩ (perform (openPool {} none) {}).2 [.took 1 ⟨0⟩] writtenPool :=
    htook.between ((Operation.allocate ⟨0⟩ (.text "theirs")).transfer _) rfl
  have hlent := hwritten.took (a := ⟨1⟩) 0 rfl
  have hback := hlent.gaveBack (a := ⟨1⟩) 0 rfl
  have hopen : perform (openPool {} none) {} = (.ok ⟨0⟩, (perform (openPool {} none) {}).2) := rfl
  obtain ⟨-, -, honce⟩ := World.lease_ends_once World.reachable_empty hopen
  obtain ⟨hrefused, hwork⟩ :=
    honce [] _ _ ⟨1⟩ 0 hback List.not_mem_nil fun _ _ h => Option.some_ne_none _ h.symm
  exact ⟨_, _, _, World.reachable_empty, rfl, rfl, rfl, hback, hrefused,
    hwork _ _ _ _ _ _ rfl rfl, rfl, rfl⟩

/-- The second release of a client takes the arena from the client that was lent it since, and what
that one stored is gone. -/
theorem lease_lost_of_writtenPool : ∃ w₀ v w,
    perform (openPool {} none) {} = (.ok ⟨0⟩, w₀) ∧
    World.Dealings ⟨0⟩ w₀ [.took 1 ⟨0⟩, .gaveBack 0 ⟨0⟩, .took 0 ⟨0⟩] v ∧
    (v.pool ⟨0⟩).leased = [⟨0⟩] ∧ (v.arena ⟨0⟩).nodes = #[.text "theirs"] ∧
    perform (release ⟨0⟩ ⟨0⟩) v = (.ok ⟨⟩, w) ∧
    (w.pool ⟨0⟩).leased = [] ∧ (w.arena ⟨0⟩).nodes = #[] := by
  have htook : World.Dealings ⟨0⟩ (perform (openPool {} none) {}).2 [.took 0 ⟨0⟩]
      (perform (do acquire (← openPool {} none)) {}).2 := .took 0 .start rfl
  have hback := htook.gaveBack (a := ⟨0⟩) 0 rfl
  have hlent := hback.took (a := ⟨0⟩) 1 rfl
  have hwritten := hlent.between ((Operation.allocate ⟨0⟩ (.text "theirs")).transfer _) rfl
  exact ⟨_, _, _, rfl, hwritten, rfl, rfl, rfl, rfl, rfl⟩

end MarkupArena
