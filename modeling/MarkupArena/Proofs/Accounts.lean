import MarkupArena.Proofs.Bookkeeping

/-! What a listener is told of a pool and its arenas is a complete account of them: how many arenas
are lent and idle, when each was lent and given back, and how many nodes were stored in between. -/
namespace MarkupArena

namespace World

/-- The books kept of a run agree with the world that it leads to. -/
structure Books (l : Listener) (p : PoolId) (past : List Happening) (w : World) : Prop where
  placed : w.Placed
  numbered : w.Numbered l
  alone : w.TellsAlone l p
  heard : w.heard l = Happening.events past
  told : (w.pool p).Told (Happening.events past)
  tallies : ∀ a, w.Followed l a → (w.arena a).Tallies a past
  fresh : ∀ a, ¬ w.Opened a → Event.lastDeal? a (Happening.events past) = none
  fit : Happening.Fit past

/-- A listener that was added and that nobody tells of anything yet. -/
structure Unheard (w : World) (l : Listener) : Prop where
  added : l.index < w.delivered.size
  counted : w.delivered.getD l.index 0 = 0
  deliveries : w.deliveries l = []
  arena : ∀ a, (w.arena a).listener ≠ some l
  pool : ∀ p, (w.pool p).listener ≠ some l

variable {w w' : World} {l : Listener} {p : PoolId} {past : List Happening}

theorem Unheard.numbered (hl : w.Unheard l) : w.Numbered l :=
  ⟨hl.added, by rw [hl.counted, hl.deliveries]; rfl, by rw [hl.deliveries]; rfl⟩

theorem Unheard.heard (hl : w.Unheard l) : w.heard l = [] := by
  rw [World.heard, hl.deliveries]
  rfl

/-- The books of a new pool are empty. -/
theorem books_of_openPool (hw : w.Reachable) (hl : w.Unheard l) {options : PoolOptions}
    (hrun : perform (openPool options (some l)) w = (.ok p, w')) : Books l p [] w' := by
  have hpools : ∀ q, w'.pool q =
      if q.index = w.pools.size then { options, listener := some l } else w.pool q := by
    obtain rfl := (Prod.mk.inj hrun).2
    exact w.pool_openPool options (some l)
  obtain ⟨rfl, harenas, hlog, hdelivered, htransfer⟩ : p = ⟨w.pools.size⟩ ∧ w'.arenas = w.arenas ∧
      w'.log = w.log ∧ w'.delivered = w.delivered ∧ w.Transfer w' := by
    obtain ⟨hp, rfl⟩ := Prod.mk.inj hrun
    exact ⟨(Except.ok.inj hp).symm, rfl, rfl, rfl, .openPool options (some l)⟩
  have hself := hpools ⟨w.pools.size⟩
  rw [if_pos rfl] at hself
  constructor
  case placed => exact hw.placed.transfer htransfer
  case numbered => exact hl.numbered.congr hlog hdelivered
  case heard => rw [heard_congr hlog, hl.heard]; rfl
  case fresh => exact fun _ _ => rfl
  case fit => exact fun later _ _ h => absurd h.symm (by simp)
  case alone =>
    refine ⟨fun q => ?_, fun a ha => ?_⟩
    · rw [hpools]
      split
      next hq => exact iff_of_true rfl (congrArg PoolId.mk hq)
      next hq => exact iff_of_false (hl.pool q) fun h => hq (congrArg PoolId.index h)
    · rw [hself] at ha
      cases ha
  case told =>
    rw [hself]
    exact ⟨fun _ h => absurd h List.not_mem_nil, fun _ h => absurd h List.not_mem_nil, rfl, rfl⟩
  case tallies =>
    intro a ha
    rcases (followed_congr harenas).mp ha with hnot | hlistener
    · rw [arena_congr harenas, arena_of_not_opened hnot]
      exact ⟨rfl, rfl⟩
    · exact absurd hlistener (hl.arena a)

namespace Books

/-- What is stored is counted for its arena. -/
theorem stored (h : Books l p past w) {a : ArenaId} (ha : w.Opened a) {node : Node}
    {handle : Handle} (hrun : perform (allocate a node) w = (.ok handle, w')) :
    Books l p (.stored a :: past) w' := by
  obtain ⟨-, rfl, -⟩ := allocate_ok hrun
  have hpush : ∀ x : Arena, (x.push node).listener = x.listener := fun _ => rfl
  have hlistener : ∀ b, ((w.store a node).arena b).listener = (w.arena b).listener :=
    listener_modifyArena hpush a
  have hfollowed : ∀ b, (w.store a node).Followed l b → w.Followed l b := fun b hb => by
    rwa [Followed, opened_store, hlistener] at hb
  constructor
  case placed => exact h.placed.transfer (.aside rfl fun b => opened_store.mpr)
  case numbered => exact h.numbered.congr rfl rfl
  case alone => exact ⟨h.alone.pool, fun b hb => (hlistener b).trans (h.alone.member b hb)⟩
  case heard => exact h.heard
  case told => exact h.told
  case fresh => exact fun b hb => h.fresh b (opened_store.not.mp hb)
  case fit => exact h.fit.cons True.intro
  case tallies =>
    intro b hb
    obtain ⟨hgeneration, hsize⟩ := h.tallies b (hfollowed b hb)
    rw [arena_store]
    by_cases hab : a = b
    · subst hab
      rw [if_pos ⟨rfl, ha⟩]
      refine ⟨hgeneration.trans (Happening.resetCount_cons_of_not rfl).symm, ?_⟩
      rw [Happening.storedSince_stored, ← hsize]
      exact Array.size_push node
    · rw [if_neg fun h => hab h.1]
      refine ⟨hgeneration.trans (Happening.resetCount_cons_of_not rfl).symm, ?_⟩
      rw [Happening.storedSince_cons_of_ne rfl fun h => hab (Happening.stored.inj h)]
      exact hsize

/-- Where no arena was opened there is nothing to count. -/
theorem nowhere (h : Books l p past w) {a : ArenaId} (ha : ¬ w.Opened a) (node : Node) :
    Books l p past (perform (allocate a node) w).2 := by
  apply allocate_leaves h
  intro _
  have harenas : (w.store a node).arenas = w.arenas :=
    arenas_modifyArena_of_not_opened ha (·.push node)
  have hsame : SameTally l w (w.store a node) := .of_arenas harenas
  constructor
  case placed => exact h.placed.transfer (.aside rfl fun b => opened_store.mpr)
  case numbered => exact h.numbered.congr rfl rfl
  case alone =>
    refine ⟨h.alone.pool, fun b hb => ?_⟩
    rw [arena_congr harenas]
    exact h.alone.member b hb
  case heard => exact h.heard
  case told => exact h.told
  case tallies => exact fun b hb => hsame.tallies h.tallies hb
  case fresh => exact fun b hb => h.fresh b (opened_store.not.mp hb)
  case fit => exact h.fit

theorem incident (h : Books l p past w) {α : Type} {act : Action α} (hact : Incident l act)
    {news : List Event} (hnews : (perform act w).2.heard l = news ++ w.heard l) :
    Books l p (news.map .told ++ past) (perform act w).2 := by
  have hturn := h.alone.turn hact hnews
  have htransfer := hact.operation.transfer w
  have hpast := Happening.events_told news past
  have hnumbered := (hact.hears w).numbered h.numbered
  refine ⟨h.placed.transfer htransfer, hnumbered, ⟨fun q => ?_, ?_⟩, ?_, ?_, ?_, ?_, ?_⟩
  · exact (hact.listener_pool w q).trans (h.alone.pool q)
  · exact hturn.member h.alone h.placed
  · rw [hnews, h.heard, hpast]
  · rw [hpast]
    exact hturn.told h.placed h.told
  · exact fun a ha => hturn.tallies h.alone h.tallies ha
  · intro a ha
    rw [hpast]
    exact hturn.fresh (fun _ => htransfer.opened) h.placed h.fresh ha
  · exact hturn.fit h.alone h.told h.fresh h.tallies h.fit

end Books

theorem Books.chronicle {w₀ : World} (hw₀ : Books l p [] w₀) (h : Chronicle l w₀ past w) :
    Books l p past w := by
  induction h with
  | start => exact hw₀
  | stored _ ha hrun ih => exact ih.stored ha hrun
  | nowhere node _ ha ih => exact ih.nowhere ha node
  | incident _ hact hnews ih => exact ih.incident hact hnews

/-- The events that a listener was told of a pool and its arenas are numbered without gaps, and they
are those of the past. How many arenas are lent and how many are idle can be counted from them, and
each of them fits what happened before it. -/
structure FullAccount (l : Listener) (p : PoolId) (past : List Happening) (w : World) : Prop where
  pool : (w.pool p).listener = some l
  member : ∀ a ∈ (w.pool p).members, (w.arena a).listener = some l
  events : (w.deliveries l).map Delivery.event = (Happening.events past).reverse
  seqs : (w.deliveries l).map Delivery.seq = List.range' 1 (w.deliveries l).length
  leased_count : (w.pool p).leased.length + (Happening.events past).countP Event.isReleased =
    (Happening.events past).countP Event.isAcquired
  idle_count : (w.pool p).idle.length + (Happening.events past).countP Event.isReused =
    (Happening.events past).countP Event.isPooled
  fits : ∀ later happening earlier, past = later ++ happening :: earlier →
    Happening.Fits earlier happening

theorem Books.fullAccount (h : Books l p past w) : FullAccount l p past w where
  pool := (h.alone.pool p).mpr rfl
  member := h.alone.member
  events := (List.reverse_reverse _).symm.trans (congrArg List.reverse h.heard)
  seqs := h.numbered.seqs
  leased_count := h.told.leased_count
  idle_count := h.told.idle_count
  fits := h.fit

/-- A listener that a pool is opened with, and nobody else's until then or for another pool later,
is told all there is to tell. Whatever clients go on to do in whatever order, with this pool and
with anything else, and wherever they fail, there is a chronicle of it; and at any point of any
chronicle the events are a full account. -/
theorem full_account {w₀ : World} (hw : w.Reachable) (hl : w.Unheard l) {options : PoolOptions}
    (hopen : perform (openPool options (some l)) w = (.ok p, w₀)) :
    (∀ (σ α : Type) (work : Session σ α) (own own' : σ) (outcome : Except Failure α) (w' : World),
      Client (Incidental l) (fun _ => True) (fun _ => True) work →
      perform work (w₀, own) = (outcome, w', own') → ∃ past, Chronicle l w₀ past w') ∧
    ∀ past w', Chronicle l w₀ past w' → FullAccount l p past w' := by
  constructor
  · intro σ α work own own' outcome w' hwork hrun
    exact hwork.chronicle (fun _ => True.intro) True.intro hrun
  · intro past w' hpast
    exact ((books_of_openPool hw hl hopen).chronicle hpast).fullAccount

end World

/-- A world with a listener and nothing else. -/
def oneListener : World := (perform addListener {}).2

def listenedPool : World := (perform (openPool {} (some ⟨0⟩)) oneListener).2

/-- Two leases of one arena, with a text stored in the first and a reset in the second. -/
def leaseTwice : Session Unit Unit := do
  let a ← monadLift (acquire ⟨0⟩)
  let _ ← monadLift (allocate a (.text "kept"))
  monadLift (release ⟨0⟩ a)
  let b ← monadLift (acquire ⟨0⟩)
  monadLift (reset b)

theorem unheard_oneListener : oneListener.Unheard ⟨0⟩ where
  added := by decide
  counted := rfl
  deliveries := rfl
  arena _ := nofun
  pool _ := nofun

theorem full_account_of_leaseTwice : ∃ past w', oneListener.Reachable ∧
    perform (openPool {} (some ⟨0⟩)) oneListener = (.ok ⟨0⟩, listenedPool) ∧
    perform leaseTwice (listenedPool, ()) = (.ok (), w', ()) ∧
    Chronicle ⟨0⟩ listenedPool past w' ∧ World.FullAccount ⟨0⟩ ⟨0⟩ past w' ∧
    w'.deliveries ⟨0⟩ = [⟨⟨0⟩, 1, .acquired ⟨0⟩ false⟩, ⟨⟨0⟩, 2, .reset ⟨0⟩ 1 1⟩,
      ⟨⟨0⟩, 3, .released ⟨0⟩ .pooled⟩, ⟨⟨0⟩, 4, .acquired ⟨0⟩ true⟩,
      ⟨⟨0⟩, 5, .reset ⟨0⟩ 2 0⟩] := by
  have hreachable : oneListener.Reachable := World.reachable_empty.call .addListener
  have hopen : perform (openPool {} (some ⟨0⟩)) oneListener = (.ok ⟨0⟩, listenedPool) := rfl
  obtain ⟨hruns, hfull⟩ := World.full_account hreachable unheard_oneListener hopen
  have hclient : Client (Incidental ⟨0⟩) (fun _ => True) (fun _ => True) leaseTwice := by
    refine .andThen (.call (.inr (.acquire ⟨0⟩))) fun a => ?_
    refine .andThen (.call (.inl ⟨a, .allocate _⟩)) fun _ => ?_
    refine .andThen (.call (.inr (.release ⟨0⟩ a))) fun _ => ?_
    exact .andThen (.call (.inr (.acquire ⟨0⟩))) fun b => .call (.inr (.reset b))
  obtain ⟨past, hpast⟩ := hruns Unit Unit leaseTwice () () _ _ hclient rfl
  exact ⟨past, _, hreachable, hopen, rfl, hpast, hfull past _ hpast, by decide⟩

end MarkupArena
