import MarkupArena.Proofs.HandleSafety
import MarkupArena.Proofs.Lending

/-! Work on a lent arena. Whatever the work comes to, its arena goes back to the pool, and nothing
that was stored there can be reached any more. Other leases, made before or by work on other arenas
that is nested in it, are none of its concern. -/
namespace MarkupArena

variable {σ α β : Type}

/-- The operations but for one that gives back a certain arena. -/
inductive SparesLease (a : ArenaId) : {α : Type} → Action α → Prop where
  | on {α : Type} {b : ArenaId} {act : Action α} : WorksOn b act → SparesLease a act
  | addListener : SparesLease a addListener
  | openArena (options : ArenaOptions) (listener : Option Listener) :
      SparesLease a (openArena options listener)
  | openPool (options : PoolOptions) (listener : Option Listener) :
      SparesLease a (openPool options listener)
  | openCache (maxEntries : Option Number) : SparesLease a (openCache maxEntries)
  | updateCache {α : Type} (c : CacheId) (step : Cache → α × Cache) :
      SparesLease a (updateCache c step)
  | acquire (p : PoolId) : SparesLease a (acquire p)
  | release (p : PoolId) {b : ArenaId} : b ≠ a → SparesLease a (release p b)
  | look {α : Type} (look : World → Except Failure α) : SparesLease a (observe look)

theorem SparesLease.works {a : ArenaId} {act : Action α} (h : SparesLease a act) :
    (∃ b, WorksOn b act) ∨ WorksAside act := by
  cases h with
  | on h => exact .inl ⟨_, h⟩
  | addListener => exact .inr .addListener
  | openArena options listener => exact .inr (.openArena options listener)
  | openPool options listener => exact .inr (.openPool options listener)
  | openCache maxEntries => exact .inr (.openCache maxEntries)
  | updateCache c step => exact .inr (.updateCache c step)
  | acquire p => exact .inr (.acquire p)
  | release p _ => exact .inr (.release p _)
  | look look => exact .inr (.look look)

/-- Only an operation that gives an arena back ends its lease. -/
theorem SparesLease.leased {a : ArenaId} {act : Action α} (h : SparesLease a act) {w : World}
    {p : PoolId} (ha : a ∈ (w.pool p).leased) : a ∈ ((perform act w).2.pool p).leased := by
  cases h with
  | @on _ b _ h =>
    have hkept := (keepsBut_of_worksOn h w w (.refl b w)).1
    rwa [World.pool_congr hkept.pools]
  | addListener => exact ha
  | openArena => exact ha
  | openCache => exact ha
  | updateCache => exact ha
  | look look => rwa [perform_observe]
  | openPool options listener =>
    have hp := World.lt_of_mem_members (List.mem_append_right _ ha)
    have hsame : (perform (MarkupArena.openPool options listener) w).2.pool p = w.pool p :=
      w.pool_openPool_of_lt options listener hp
    rwa [hsame]
  | acquire q =>
    rw [perform_acquire]
    split <;> rw [World.pool_lend] <;> split
    next hq => exact hq.1 ▸ List.mem_append_left _ ha
    next => exact ha
    next hq => exact hq.1 ▸ List.mem_append_left _ ha
    next => exact ha
  | @release q b hb =>
    by_cases hleased : b ∈ (w.pool q).leased
    · rw [perform_release hleased, World.pool_returned]
      split
      next hq =>
        obtain ⟨rfl, -⟩ := hq
        exact (List.mem_erase_of_ne hb.symm).mpr ha
      next => exact ha
    · rwa [perform_release_of_not_mem hleased]

/-- Work that, begun in a state, does not give back an arena. It may fail, recover and clean up
anywhere, lend other arenas and give them back, and it may contain work on lent arenas, and
documents made in them, to any depth. -/
inductive Retains (a : ArenaId) : {α : Type} → Session σ α → World × σ → Prop where
  | done {α : Type} (x : α) (s : World × σ) : Retains a (pure x) s
  | fail {α : Type} (f : Failure) (s : World × σ) : Retains a (throw f : Session σ α) s
  | andThen {α β : Type} {work : Session σ α} {next : α → Session σ β} {s : World × σ} :
      Retains a work s → (∀ x t, perform work s = (.ok x, t) → Retains a (next x) t) →
      Retains a (work >>= next) s
  | attempt {α : Type} {work : Session σ α} {handler : Failure → Session σ α} {s : World × σ} :
      Retains a work s → (∀ f t, perform work s = (.error f, t) → Retains a (handler f) t) →
      Retains a (tryCatch work handler) s
  | cleanUp {α β : Type} {work : Session σ α} {cleanup : Session σ β} {s : World × σ} :
      Retains a work s → Retains a cleanup (perform work s).2 →
      Retains a (tryFinally work cleanup) s
  | recollect (s : World × σ) : Retains a recollect s
  | memorize (own : σ) (s : World × σ) : Retains a (memorize own) s
  | call {α : Type} {act : Action α} (s : World × σ) : SparesLease a act →
      Retains a (monadLift act) s
  | revise {source dest : ArenaId} {root : Handle} {visitor : Revision.Visitor (Session σ)}
      (s : World × σ) :
      (∀ node h depth t, t.1.Placed → (∃ p, a ∈ (t.1.pool p).leased) →
        Retains a (visitor node h depth) t) →
      Retains a (Revision.revise source dest root visitor) s
  | lend {α : Type} {p : PoolId} {work : ArenaId → Session σ α} {s : World × σ} :
      (∀ b v, perform (acquire p) s.1 = (.ok b, v) → Retains a (work b) (v, s.2)) →
      Retains a (withArena p work) s
  | render {p : PoolId} {withDoctype : Bool} {build : ArenaId → Session σ Handle}
      {s : World × σ} :
      (∀ b v, perform (acquire p) s.1 = (.ok b, v) → Retains a (build b) (v, s.2)) →
      Retains a (renderDocument p withDoctype build) s

namespace World

variable {w₀ w w' : World}

/-- A world that came after another, in which an arena is lent. -/
structure StillLent (w₀ : World) (p : PoolId) (a : ArenaId) (w : World) : Prop where
  transfers : w₀.Transfers w
  evolves : w₀.Evolves w
  leased : a ∈ (w.pool p).leased

/-- An arena that is lent is not the next to be lent. -/
theorem Placed.ne_of_acquire (hw : w.Placed) {p q : PoolId} {a b : ArenaId}
    (ha : a ∈ (w.pool p).leased) (hrun : perform (MarkupArena.acquire q) w = (.ok b, w')) :
    b ≠ a := by
  rintro rfl
  rw [perform_acquire] at hrun
  cases hidle : (w.pool q).idle with
  | nil =>
    simp only [hidle, Prod.mk.injEq, Except.ok.injEq] at hrun
    obtain ⟨rfl, -⟩ := hrun
    exact absurd (hw.opened p _ (List.mem_append_right _ ha)) (lt_irrefl _)
  | cons c rest =>
    simp only [hidle, Prod.mk.injEq, Except.ok.injEq] at hrun
    obtain ⟨rfl, -⟩ := hrun
    exact hw.not_leased (hidle ▸ List.mem_cons_self) p ha

theorem endures_evolves (w₀ : World) : Endures w₀.Evolves where
  aside _ _ harenas hstored hw := hw.tail (.growth (.aside harenas hstored))
  opening _ options listener hw := hw.tail (.growth (.openArena options listener))
  link _ a source hw := hw.tail (.growth (.link a source))
  reset _ a hw := hw.tail (.reset a)
  allocate := invariant_allocate fun _ _ hgrowth hw => hw.tail (.growth hgrowth)

namespace StillLent

variable {p : PoolId} {a : ArenaId}

theorem placed (h : w₀.StillLent p a w) (hw₀ : w₀.Placed) : w.Placed := h.transfers.placed hw₀

theorem standsAt (b : ArenaId) : StandsAt (w₀.StillLent p a) (fun _ => True) b := by
  have hevolves := (endures_evolves w₀).standsAt b
  have htransfers := w₀.standsAt_transfers b
  apply standsAt_of_allocate
  · exact fun _ _ _ _ _ _ => True.intro
  · rintro w listener event ⟨ht, he, hleased⟩
    refine ⟨htransfers.tell w _ _ ht, hevolves.tell w _ _ he, ?_⟩
    rwa [pool_congr (w.pools_tell ..)]
  · rintro w source ⟨ht, he, hleased⟩
    exact ⟨htransfers.link w source ht, hevolves.link w source he, hleased⟩
  · rintro node w ⟨ht, he, hleased⟩
    refine ⟨⟨?_, ?_, ?_⟩, fun _ _ => True.intro⟩
    · exact ht.tail ((WorksOn.allocate node).transfer w)
    · exact ((endures_evolves w₀).allocate b node w he).1
    · exact (SparesLease.on (.allocate node)).leased hleased

/-- What spares a lease leads on to a world in which it lasts. -/
theorem call {act : Action α} (hact : SparesLease a act) :
    Invariant (w₀.StillLent p a) act := by
  rintro w ⟨ht, he, hleased⟩
  refine ⟨⟨?_, ?_, hact.leased hleased⟩, fun _ _ => True.intro⟩
  · exact ht.tail (transfer_of_works hact.works w)
  · exact ((endures_evolves w₀).works hact.works w he).1

/-- Work on another lent arena gives back that arena only. -/
theorem withArena (hw₀ : w₀.Placed) {q : PoolId} {work : ArenaId → Session σ β} {s : World × σ}
    (hs : w₀.StillLent p a s.1)
    (hwork : ∀ b v, perform (acquire q) s.1 = (.ok b, v) → w₀.StillLent p a v →
      w₀.StillLent p a (perform (work b) (v, s.2)).2.1) :
    w₀.StillLent p a (perform (MarkupArena.withArena q work) s).2.1 := by
  obtain ⟨w, own⟩ := s
  have hlent := (call (.acquire q) w hs).1
  unfold MarkupArena.withArena
  rw [perform_bind, perform_lift]
  rcases hacquire : perform (acquire q) w with ⟨f | b, v⟩
  · rw [hacquire] at hlent
    exact hlent
  · rw [hacquire] at hlent
    have hb : b ≠ a := (hs.placed hw₀).ne_of_acquire hs.leased hacquire
    have hafter := hwork b v hacquire hlent
    dsimp only
    rw [perform_tryFinally_snd]
    rcases hrun : perform (work b) (v, own) with ⟨outcome, u, own'⟩
    rw [hrun] at hafter
    exact (call (.release q hb) u hafter).1

theorem renderDocument (hw₀ : w₀.Placed) {q : PoolId} {withDoctype : Bool}
    {build : ArenaId → Session σ Handle} {s : World × σ} (hs : w₀.StillLent p a s.1)
    (hbuild : ∀ b v, perform (acquire q) s.1 = (.ok b, v) → w₀.StillLent p a v →
      w₀.StillLent p a (perform (build b) (v, s.2)).2.1) :
    w₀.StillLent p a (perform (MarkupArena.renderDocument q withDoctype build) s).2.1 := by
  refine withArena hw₀ hs fun b v hacquire hv => ?_
  have hbuilt := hbuild b v hacquire hv
  rw [perform_bind]
  rcases hrun : perform (build b) (v, s.2) with ⟨f | root, u, own'⟩
  · rw [hrun] at hbuilt
    exact hbuilt
  · rw [hrun] at hbuilt
    dsimp only
    rw [perform_lift, perform_observe]
    exact hbuilt

end StillLent

end World

/-- A lease lasts over work that does not give back the arena. -/
theorem Retains.stillLent {a : ArenaId} {work : Session σ α} {s : World × σ} (h : Retains a work s)
    {w₀ : World} (hw₀ : w₀.Placed) {p : PoolId} (hs : w₀.StillLent p a s.1) :
    w₀.StillLent p a (perform work s).2.1 := by
  induction h with
  | done => exact hs
  | fail => exact hs
  | @andThen α β work next s _ _ ihwork ihnext =>
    have hwork := ihwork hs
    rw [perform_bind]
    rcases hrun : perform work s with ⟨f | x, t⟩
    · rw [hrun] at hwork
      exact hwork
    · rw [hrun] at hwork
      exact ihnext x t hrun hwork
  | @attempt α work handler s _ _ ihwork ihhandler =>
    have hwork := ihwork hs
    rw [perform_tryCatch]
    rcases hrun : perform work s with ⟨f | x, t⟩
    · rw [hrun] at hwork
      exact ihhandler f t hrun hwork
    · rw [hrun] at hwork
      exact hwork
  | cleanUp _ _ ihwork ihcleanup =>
    rw [perform_tryFinally_snd]
    exact ihcleanup (ihwork hs)
  | recollect => exact hs
  | memorize => exact hs
  | call s hact => exact (World.StillLent.call hact s.1 hs).1
  | @revise source dest root visitor s _ ih =>
    have hstands : ∀ b, StandsRevision (w₀.StillLent p a) (fun _ => True) b :=
      fun b => (World.StillLent.standsAt b).revision
    have hvisitor : ∀ node h depth, node.Within (fun _ => True) →
        Invariant (fun t : World × σ => w₀.StillLent p a t.1 ∧ True) (visitor node h depth) :=
      fun node h depth _ t ht =>
        ⟨⟨ih node h depth t (ht.1.placed hw₀) ⟨p, ht.1.leased⟩ ht.1, True.intro⟩,
          fun _ _ => True.intro⟩
    have hrevise := @invariant_revise σ (w₀.StillLent p a) (fun _ => True) (fun _ => True)
      hstands source dest root visitor hvisitor
    exact (hrevise s ⟨hs, True.intro⟩).1.1
  | lend _ ih => exact World.StillLent.withArena hw₀ hs fun b v hrun hv => ih b v hrun hv
  | render _ ih => exact World.StillLent.renderDocument hw₀ hs fun b v hrun hv => ih b v hrun hv

/-- Work on a lent arena that is still lent in the end comes to what it comes to by itself, and then
the arena is given back. -/
theorem perform_withArena_of_leased {p : PoolId} {work : ArenaId → Session σ β} {w v u : World}
    {a : ArenaId} {own own' : σ} {outcome : Except Failure β}
    (hacquire : perform (acquire p) w = (.ok a, v))
    (hwork : perform (work a) (v, own) = (outcome, u, own')) (ha : a ∈ (u.pool p).leased) :
    perform (withArena p work) (w, own) = (outcome, (u.takeBack p a).putAway p a, own') := by
  unfold withArena
  rw [perform_bind, perform_lift, hacquire]
  dsimp only
  rw [perform_tryFinally, hwork]
  simp only [perform_lift, perform_release ha]

namespace World

variable {w u : World}

/-- A handle of an earlier generation of its arena resolves nowhere. -/
theorem resolve_ne_ok_of_generation_lt {a : ArenaId} {generation slot copy : Nat}
    (hlt : generation < (w.arena a).generation) (b : ArenaId) (node : Node) :
    w.resolve b (a.handle generation slot copy) ≠ .ok node := by
  intro hr
  obtain ⟨c, -, slot', copy', hhandle, -⟩ := resolve_eq_ok_iff.mp hr
  simp only [ArenaId.handle, Handle.mk.injEq, Coordinate.count.injEq] at hhandle
  obtain ⟨hnumber, hgen, -⟩ := hhandle
  obtain rfl := ArenaId.number_injective hnumber
  exact absurd hgen hlt.ne

section
variable {p : PoolId} {a : ArenaId} (hu : u.Placed) (ha : a ∈ (u.pool p).leased)
include hu ha

/-- What is given back ends one lease and no other. -/
theorem Placed.mem_leased_release (q : PoolId) (b : ArenaId) :
    b ∈ (((u.takeBack p a).putAway p a).pool q).leased ↔ b ∈ (u.pool q).leased ∧ b ≠ a := by
  by_cases hq : q = p
  · subst hq
    obtain ⟨-, hnodup, -⟩ := List.nodup_append.mp (hu.nodup q)
    rw [hu.pool_release ha, hnodup.mem_erase_iff, and_comm]
  · have hsame : ((u.takeBack p a).putAway p a).pool q = u.pool q := by
      rw [pool_returned, if_neg fun h => hq h.1.symm]
    rw [hsame]
    refine (and_iff_left_of_imp fun hb => ?_).symm
    rintro rfl
    exact hq (hu.apart q p b (List.mem_append_right _ hb) (List.mem_append_right _ ha))

theorem Placed.generation_release :
    (((u.takeBack p a).putAway p a).arena a).generation = (u.arena a).generation + 1 := by
  rw [arena_congr (arenas_putAway ..)]
  exact hu.generation_takeBack ha

end

theorem arena_release_of_ne (u : World) (p : PoolId) {a b : ArenaId} (hb : b ≠ a) :
    ((u.takeBack p a).putAway p a).arena b = u.arena b := by
  rw [arena_congr (arenas_putAway ..), arena_congr (u.arenas_takeBack ..)]
  exact u.arena_modifyArena_of_ne Arena.next hb

/-- Work on a lent arena, begun in any world that clients can bring about, leaves nothing of the
arena behind, whatever is nested in it and wherever it fails, as long as it does not give the arena
back itself. Nobody held the arena that it gets, and nobody holds it afterwards; what was given out
by it on the way resolves nowhere from then on. What others hold in the end they go on to hold, with
all that is in it, and so does who held an arena before that the work did not give back. The outcome
is that of the work, be it a failure or not. -/
theorem nothing_left_behind (hw : w.Reachable) {p : PoolId} (hp : p.index < w.pools.size)
    {work : ArenaId → Session σ β} {own : σ}
    (hwork : ∀ a v, perform (acquire p) w = (.ok a, v) → Retains a (work a) (v, own)) :
    ∃ a v outcome u own' w', perform (acquire p) w = (.ok a, v) ∧
      perform (work a) (v, own) = (outcome, u, own') ∧
      perform (withArena p work) (w, own) = (outcome, w', own') ∧
      (∀ q, a ∉ (w.pool q).leased) ∧ (∀ q, a ∉ (w'.pool q).leased) ∧
      (∀ x node h x', v.Evolves x → perform (allocate a node) x = (.ok h, x') → x'.Evolves u →
        ∀ w'' b n, w'.Leads w'' → w''.resolve b h ≠ .ok n) ∧
      (∀ q, ∀ b ∈ (u.pool q).leased, b ≠ a → b ∈ (w'.pool q).leased ∧ w'.arena b = u.arena b) ∧
      ∀ q, ∀ b ∈ (w.pool q).leased, Retains b (work a) (v, own) →
        b ∈ (w'.pool q).leased ∧ w'.arena b = u.arena b := by
  have hplaced := hw.placed
  obtain ⟨a, v, hacquire, hfree, hlent, hothers⟩ := hplaced.acquire hp
  rcases hrun : perform (work a) (v, own) with ⟨outcome, u, own'⟩
  have hv : v.Placed := by
    have hstep := w.transfer_acquire p
    rw [hacquire] at hstep
    exact hplaced.transfer hstep
  have hlasts : ∀ q b, b ∈ (v.pool q).leased → Retains b (work a) (v, own) →
      v.StillLent q b u := by
    intro q b hb hretains
    have hstill := hretains.stillLent hv (s := (v, own)) ⟨.refl, .refl, hb⟩
    rwa [hrun] at hstill
  have ha : a ∈ (v.pool p).leased := hlent ▸ List.mem_append_right _ (List.mem_singleton.mpr rfl)
  have hstill := hlasts p a ha (hwork a v hacquire)
  have hu := hstill.placed hv
  have hreturned := perform_withArena_of_leased hacquire hrun hstill.leased
  have hkept : ∀ q, ∀ b ∈ (u.pool q).leased, b ≠ a →
      b ∈ (((u.takeBack p a).putAway p a).pool q).leased ∧
        ((u.takeBack p a).putAway p a).arena b = u.arena b := fun q b hb hne =>
    ⟨(hu.mem_leased_release hstill.leased q b).mpr ⟨hb, hne⟩, arena_release_of_ne u p hne⟩
  refine ⟨a, v, outcome, u, own', _, hacquire, hrun, hreturned, hfree, ?_, ?_, hkept, ?_⟩
  · intro q hq
    exact ((hu.mem_leased_release hstill.leased q a).mp hq).2 rfl
  · intro x node h x' hx hissue hx' w'' b n hleads
    have hopened : x.Opened a := hx.ages.opened a (hv.opened p a (List.mem_append_right _ ha))
    have hstep : x.Grows x' := by
      obtain ⟨-, rfl, -⟩ := allocate_ok hissue
      exact x.grows_store a node
    have hissued := (hstep.ages.trans hx'.ages).arena a hopened
    have hlater := hleads.evolves.ages.arena a
      ((Transfer.takeBack hstill.leased).opened
        (hu.opened p a (List.mem_append_right _ hstill.leased)))
    have hgen := hu.generation_release hstill.leased
    rw [allocate_handle hopened hissue]
    apply resolve_ne_ok_of_generation_lt
    have := hissued.generation_le
    have := hlater.generation_le
    omega
  · intro q b hb hretains
    have hv : b ∈ (v.pool q).leased := by
      have hspared := (SparesLease.acquire (a := b) p).leased hb
      rwa [hacquire] at hspared
    exact hkept q b (hlasts q b hv hretains).leased fun hba => hfree q (hba ▸ hb)

end World

/-- Fails amid work on a third arena within work on a second. -/
def failDeeper (a : ArenaId) : Session Unit Unit :=
  withArena ⟨0⟩ fun b => do
    monadLift (link b a)
    withArena ⟨0⟩ fun c => do
      monadLift (link c b)
      throw .textTooLong

/-- Stores a text before it goes on to fail. -/
def failWithin (a : ArenaId) : Session Unit Unit := do
  let _ ← monadLift (allocate a (.text "kept"))
  failDeeper a

theorem retains_failDeeper (a b : ArenaId) (s : World × Unit) : Retains b (failDeeper a) s := by
  refine .lend fun c v _ => ?_
  refine .andThen (.call _ (.on (.link a))) fun _ t _ => .lend fun d v _ => ?_
  exact .andThen (.call _ (.on (.link c))) fun _ t _ => .fail _ t

theorem retains_failWithin (a b : ArenaId) (s : World × Unit) : Retains b (failWithin a) s :=
  .andThen (.call s (.on (.allocate _))) fun _ t _ => retains_failDeeper a b t

def lentAgain : World := (perform (acquire ⟨0⟩) lentPool).2

def textKept : World := lentAgain.store ⟨0⟩ (.text "kept")

theorem perform_lentAgain : perform (acquire ⟨0⟩) lentPool = (.ok ⟨0⟩, lentAgain) := rfl

theorem perform_textKept :
    perform (allocate ⟨0⟩ (.text "kept")) lentAgain =
      (.ok (ArenaId.handle ⟨0⟩ 1 0), textKept) := rfl

theorem placed_textKept : textKept.Placed := by
  have hlent := reachable_lentPool.call (.acquire ⟨0⟩)
  exact World.Reachable.placed (hlent.call (.allocate ⟨0⟩ (.text "kept")))

/-- The failure deep within comes out, the three arenas are given back, the text is out of reach,
and the arena that somebody else holds is still theirs. -/
theorem nothing_left_behind_of_failWithin : ∃ w',
    lentPool.Reachable ∧ 0 < lentPool.pools.size ∧
    (∀ a v, perform (acquire ⟨0⟩) lentPool = (.ok a, v) → Retains a (failWithin a) (v, ())) ∧
    perform (withArena ⟨0⟩ failWithin) (lentPool, ()) = (.error .textTooLong, w', ()) ∧
    ⟨0⟩ ∉ (w'.pool ⟨0⟩).leased ∧ ⟨1⟩ ∈ (w'.pool ⟨0⟩).leased ∧
    ∀ b n, w'.resolve b (ArenaId.handle ⟨0⟩ 1 0) ≠ .ok n := by
  have hretains : ∀ a v, perform (acquire ⟨0⟩) lentPool = (.ok a, v) →
      Retains a (failWithin a) (v, ()) := fun a v _ => retains_failWithin a a (v, ())
  obtain ⟨a, v, outcome, u, own', w', hacquire, hrun, hreturned, -, hended, hdead, -, hheld⟩ :=
    World.nothing_left_behind reachable_lentPool (p := ⟨0⟩) (by decide) hretains
  obtain ⟨ha, rfl⟩ := Prod.mk.inj (hacquire.symm.trans perform_lentAgain)
  obtain rfl := Except.ok.inj ha
  have hfirst : perform (failWithin ⟨0⟩) (lentAgain, ()) =
      perform (failDeeper ⟨0⟩) (textKept, ()) := rfl
  have houtcome : (perform (failDeeper ⟨0⟩) (textKept, ())).1 = .error .textTooLong := rfl
  have hrest := (retains_failDeeper ⟨0⟩ ⟨1⟩ (textKept, ())).stillLent placed_textKept (p := ⟨0⟩)
    ⟨.refl, .refl, List.mem_cons_self⟩
  rw [hfirst] at hrun
  rw [hrun] at houtcome hrest
  obtain rfl : outcome = .error .textTooLong := houtcome
  have hother : ⟨1⟩ ∈ (lentPool.pool ⟨0⟩).leased := by decide
  have hstill := (hheld ⟨0⟩ ⟨1⟩ hother (retains_failWithin _ _ _)).1
  refine ⟨w', reachable_lentPool, by decide, hretains, hreturned, hended ⟨0⟩, hstill, ?_⟩
  exact fun b n => hdead lentAgain _ _ textKept .refl perform_textKept hrest.evolves w' b n
    w'.leads_self

end MarkupArena
