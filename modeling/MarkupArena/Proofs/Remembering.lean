import MarkupArena.Proofs.Recency
import MarkupArena.Proofs.Transfers

/-! Work with a cache, down to requests that render with the same cache or fail. Whatever else it
does, the cache is what its calls make of it. -/
namespace MarkupArena

variable {σ α β : Type}

theorem World.caches_tell (w : World) (listener : Option Listener) (event : Event) :
    (w.tell listener event).caches = w.caches := by
  cases listener <;> rfl

/-- The cache stays as it is, in every world where it was opened. -/
def LeavesCache (c : CacheId) (act : Action α) : Prop :=
  ∀ w, c.index < w.caches.size → (perform act w).2.caches[c.index]? = w.caches[c.index]?

theorem leavesCache_of_worksOn {a : ArenaId} {act : Action α} (h : WorksOn a act) (c : CacheId) :
    LeavesCache c act := by
  intro w _
  have hallocate : ∀ node, Invariant (fun v => v.caches = w.caches) (allocate a node) := by
    intro node v hv
    refine ⟨?_, fun _ _ => True.intro⟩
    exact allocate_leaves (P := fun u => u.caches = w.caches) hv fun _ => hv
  have htell : ∀ (v : World) (listener : Option Listener) (event : Event),
      v.caches = w.caches → (v.tell listener event).caches = w.caches :=
    fun v listener event hv => (v.caches_tell listener event).trans hv
  have hstands : StandsAt (fun v => v.caches = w.caches) (fun _ => True) a :=
    standsAt_of_allocate (fun _ _ _ _ _ _ => True.intro) htell (fun _ _ hv => hv) hallocate
  have hkept := h.invariant hstands hallocate fun v hv => ⟨htell _ _ _ hv, fun _ _ => True.intro⟩
  rw [(hkept w rfl).1]

theorem leavesCache_updateCache {c other : CacheId} (h : other ≠ c) (step : Cache → α × Cache) :
    LeavesCache c (updateCache other step) := by
  intro w _
  have hindex : other.index ≠ c.index := fun hindex => h (congrArg CacheId.mk hindex)
  exact Array.getElem?_setIfInBounds_ne hindex

theorem leavesCache_openCache (requested : Option Number) (c : CacheId) :
    LeavesCache c (openCache requested) := by
  intro w hc
  exact (Array.getElem?_push_lt hc).trans (Array.getElem?_eq_getElem hc).symm

theorem leavesCache_acquire (p : PoolId) (c : CacheId) : LeavesCache c (acquire p) := by
  intro w _
  have hcaches : (perform (acquire p) w).2.caches = w.caches := by
    rw [perform_acquire]
    cases (w.pool p).idle <;> exact World.caches_tell ..
  rw [hcaches]

theorem leavesCache_release (p : PoolId) (a : ArenaId) (c : CacheId) :
    LeavesCache c (release p a) := by
  intro w _
  by_cases ha : a ∈ (w.pool p).leased
  · have hcaches : ((w.takeBack p a).putAway p a).caches = w.caches :=
      (World.caches_tell ..).trans (World.caches_tell ..)
    rw [perform_release ha, hcaches]
  · rw [perform_release_of_not_mem ha]

/-- An operation leaves a cache as it is, or it is a call of that cache. -/
theorem Operation.leavesCache {act : Action α} (h : Operation act) (c : CacheId) :
    LeavesCache c act ∨ ∃ step, act = MarkupArena.updateCache c step := by
  rcases h.works with ⟨a, hon⟩ | haside
  · exact .inl (leavesCache_of_worksOn hon c)
  cases haside with
  | updateCache other step =>
    by_cases hother : other = c
    · exact .inr ⟨step, hother ▸ rfl⟩
    · exact .inl (leavesCache_updateCache hother step)
  | openCache requested => exact .inl (leavesCache_openCache requested c)
  | acquire p => exact .inl (leavesCache_acquire p c)
  | release p a => exact .inl (leavesCache_release p a c)
  | look look =>
    refine .inl fun w _ => ?_
    rw [perform_observe]
  | addListener => exact .inl fun _ _ => rfl
  | openArena => exact .inl fun _ _ => rfl
  | openPool => exact .inl fun _ _ => rfl

/-- Work that, begun in a state, makes some calls of a cache, the latest of which comes first. Its
other operations leave the cache alone. A request for what is there is one call; a request for what
is not there makes those of its rendering as well, and stores what that comes to unless it fails. -/
inductive Uses (c : CacheId) : {α : Type} → Session σ α → World × σ → List Cache.Call → Prop where
  | done {α : Type} (x : α) (s : World × σ) : Uses c (pure x) s []
  | fail {α : Type} (f : Failure) (s : World × σ) : Uses c (throw f : Session σ α) s []
  | andThen {α β : Type} {work : Session σ α} {next : α → Session σ β} {s t : World × σ} {x : α}
      {calls later : List Cache.Call} :
      Uses c work s calls → perform work s = (.ok x, t) → Uses c (next x) t later →
      Uses c (work >>= next) s (later ++ calls)
  | cutOff {α β : Type} {work : Session σ α} {next : α → Session σ β} {s t : World × σ}
      {f : Failure} {calls : List Cache.Call} :
      Uses c work s calls → perform work s = (.error f, t) → Uses c (work >>= next) s calls
  | attempt {α : Type} {work : Session σ α} {handler : Failure → Session σ α} {s t : World × σ}
      {x : α} {calls : List Cache.Call} :
      Uses c work s calls → perform work s = (.ok x, t) → Uses c (tryCatch work handler) s calls
  | recover {α : Type} {work : Session σ α} {handler : Failure → Session σ α} {s t : World × σ}
      {f : Failure} {calls later : List Cache.Call} :
      Uses c work s calls → perform work s = (.error f, t) → Uses c (handler f) t later →
      Uses c (tryCatch work handler) s (later ++ calls)
  | cleanUp {α β : Type} {work : Session σ α} {cleanup : Session σ β} {s : World × σ}
      {calls later : List Cache.Call} :
      Uses c work s calls → Uses c cleanup (perform work s).2 later →
      Uses c (tryFinally work cleanup) s (later ++ calls)
  | recollect (s : World × σ) : Uses c recollect s []
  | memorize (own : σ) (s : World × σ) : Uses c (memorize own) s []
  | aside {α : Type} {act : Action α} (s : World × σ) :
      LeavesCache c act → Uses c (monadLift act) s []
  | get (key : String) (s : World × σ) :
      Uses c (monadLift (updateCache c (·.get key))) s [.get key]
  | has (key : String) (s : World × σ) :
      Uses c (monadLift (updateCache c fun cache => (cache.has key, cache))) s [.has key]
  | set (key : String) (markup : Rendered) (s : World × σ) :
      Uses c (monadLift (updateCache c fun cache => ((), cache.set key markup))) s
        [.set key markup]
  | delete (key : String) (s : World × σ) :
      Uses c (monadLift (updateCache c (·.delete key))) s [.delete key]
  | clear (s : World × σ) :
      Uses c (monadLift (updateCache c fun cache => ((), cache.clear))) s [.clear]
  | found {key : String} {work : Session σ Rendered} {s : World × σ} :
      (s.1.cache c).has key = true → Uses c (getOrRender c key work) s [.ask key]
  | rendered {key : String} {markup : Rendered} {work : Session σ Rendered} {s t : World × σ}
      {calls : List Cache.Call} :
      (s.1.cache c).has key = false →
      Uses c work (s.1.setCache c ((s.1.cache c).lookup key).2, s.2) calls →
      perform work (s.1.setCache c ((s.1.cache c).lookup key).2, s.2) = (.ok markup, t) →
      Uses c (getOrRender c key work) s (.set key markup :: (calls ++ [.ask key]))
  | thrown {key : String} {f : Failure} {work : Session σ Rendered} {s t : World × σ}
      {calls : List Cache.Call} :
      (s.1.cache c).has key = false →
      Uses c work (s.1.setCache c ((s.1.cache c).lookup key).2, s.2) calls →
      perform work (s.1.setCache c ((s.1.cache c).lookup key).2, s.2) = (.error f, t) →
      Uses c (getOrRender c key work) s (calls ++ [.ask key])

theorem perform_updateCache (c : CacheId) (step : Cache → α × Cache) (w : World) :
    perform (updateCache c step) w =
      (.ok (step (w.cache c)).1, w.setCache c (step (w.cache c)).2) := rfl

theorem Cache.lookup_of_has {cache : Cache} {key : String} (h : cache.has key = true) :
    ∃ markup, (cache.lookup key).1 = some markup := by
  obtain ⟨markup, hmarkup⟩ := Option.isSome_iff_exists.mp h
  refine ⟨markup, ?_⟩
  rw [lookup, get, hmarkup]

theorem Cache.lookup_of_not_has {cache : Cache} {key : String} (h : cache.has key = false) :
    cache.lookup key = (none, { cache with misses := cache.misses + 1 }) := by
  rw [lookup, get_of_not_has h]

/-- What is there is answered from the cache, and counts as a look-up. -/
theorem perform_getOrRender_found {c : CacheId} {key : String} {w : World}
    (h : (w.cache c).has key = true) (work : Session σ Rendered) (own : σ) :
    ∃ markup, perform (getOrRender c key work) (w, own) =
      (.ok markup, w.setCache c ((w.cache c).lookup key).2, own) := by
  obtain ⟨markup, hmarkup⟩ := Cache.lookup_of_has h
  refine ⟨markup, ?_⟩
  unfold getOrRender
  rw [perform_bind, perform_lift, perform_updateCache, hmarkup]
  rfl

/-- What is not there is rendered in a world where the look-up counts, and then stored. -/
theorem perform_getOrRender_missing {c : CacheId} {key : String} {w : World}
    (h : (w.cache c).has key = false) (work : Session σ Rendered) (own : σ) :
    perform (getOrRender c key work) (w, own) =
      match perform work (w.setCache c ((w.cache c).lookup key).2, own) with
      | (.ok markup, v, own') => (.ok markup, v.setCache c ((v.cache c).set key markup), own')
      | (.error f, t) => (.error f, t) := by
  unfold getOrRender
  rw [perform_bind, perform_lift, perform_updateCache, Cache.lookup_of_not_has h]
  dsimp only
  rw [perform_bind]
  rcases perform work (w.setCache c _, own) with ⟨_ | markup, v, own'⟩ <;> rfl

section
variable {c : CacheId} {w : World} {cache : Cache}

theorem World.cache_eq (h : w.caches[c.index]? = some cache) : w.cache c = cache := by
  rw [World.cache, Array.getD_eq_getD_getElem?, h]
  rfl

theorem World.caches_setCache (h : w.caches[c.index]? = some cache) (new : Cache) :
    (w.setCache c new).caches[c.index]? = some new := by
  obtain ⟨hc, -⟩ := Array.getElem?_eq_some_iff.mp h
  exact Array.getElem?_setIfInBounds_self_of_lt hc

theorem caches_updateCache (h : w.caches[c.index]? = some cache) (step : Cache → α × Cache) :
    (perform (updateCache c step) w).2.caches[c.index]? = some (step cache).2 := by
  rw [perform_updateCache, World.cache_eq h]
  exact World.caches_setCache h _

end

/-- The cache after work is what its calls make of it. -/
theorem Uses.cache_eq {c : CacheId} {work : Session σ α} {s : World × σ}
    {calls : List Cache.Call} (h : Uses c work s calls) {cache : Cache}
    (hcache : s.1.caches[c.index]? = some cache) :
    (perform work s).2.1.caches[c.index]? = some (cache.replay calls) := by
  induction h generalizing cache with
  | done => exact hcache
  | fail => exact hcache
  | recollect => exact hcache
  | memorize => exact hcache
  | andThen _ hrun _ ihwork ihnext =>
    have hbefore := ihwork hcache
    rw [hrun] at hbefore
    rw [perform_bind, hrun, Cache.replay_append]
    exact ihnext hbefore
  | cutOff _ hrun ih =>
    have hbefore := ih hcache
    rw [hrun] at hbefore
    rw [perform_bind, hrun]
    exact hbefore
  | attempt _ hrun ih =>
    have hbefore := ih hcache
    rw [hrun] at hbefore
    rw [perform_tryCatch, hrun]
    exact hbefore
  | recover _ hrun _ ihwork ihhandler =>
    have hbefore := ihwork hcache
    rw [hrun] at hbefore
    rw [perform_tryCatch, hrun, Cache.replay_append]
    exact ihhandler hbefore
  | cleanUp _ _ ihwork ihcleanup =>
    rw [perform_tryFinally_snd, Cache.replay_append]
    exact ihcleanup (ihwork hcache)
  | aside s hleaves =>
    obtain ⟨hc, -⟩ := Array.getElem?_eq_some_iff.mp hcache
    exact (hleaves s.1 hc).trans hcache
  | get key => exact caches_updateCache hcache fun cache => cache.get key
  | has key => exact caches_updateCache hcache fun cache => (cache.has key, cache)
  | set key markup => exact caches_updateCache hcache fun cache => ((), cache.set key markup)
  | delete key => exact caches_updateCache hcache fun cache => cache.delete key
  | clear => exact caches_updateCache hcache fun cache => ((), cache.clear)
  | @found key work s hhas =>
    obtain ⟨markup, hanswer⟩ := perform_getOrRender_found hhas work s.2
    rw [hanswer, World.cache_eq hcache]
    exact World.caches_setCache hcache _
  | @rendered key markup work s t calls hhas _ hrun ih =>
    have hinner := ih (World.caches_setCache hcache _)
    rw [hrun, World.cache_eq hcache] at hinner
    rw [perform_getOrRender_missing hhas, hrun]
    dsimp only
    rw [World.cache_eq hinner, Cache.replay, Cache.replay_append]
    exact World.caches_setCache hinner _
  | @thrown key f work s t calls hhas _ hrun ih =>
    have hinner := ih (World.caches_setCache hcache _)
    rw [hrun, World.cache_eq hcache] at hinner
    rw [perform_getOrRender_missing hhas, hrun, Cache.replay_append]
    exact hinner

/-- A cache keeps what was used most recently. Where nothing was deleted, a key is present if it was
stored and fewer other keys than may be kept were used since its last use; under it is what was
stored last. There are never more keys than may be kept, a key that gives way to another is the
one last used before all that are present, and what was deleted is absent until it is stored again.
Every request counts once. One that fails to render leaves everything as the rendering left it. -/
theorem Uses.keeps_recent {requested : Option Number} {w₀ w v : World} {c : CacheId}
    {work : Session σ α} {own own' : σ} {calls : List Cache.Call} {outcome : Except Failure α}
    (hopen : perform (openCache requested) w₀ = (.ok c, w)) (h : Uses c work (w, own) calls)
    (hrun : perform work (w, own) = (outcome, v, own')) :
    let after := Cache.replay (Cache.empty requested)
    let uses := Cache.uses (Cache.empty requested)
    v.cache c = after calls ∧ v.cache c = after (calls.filter (!·.peeks)) ∧
    ((∀ call ∈ calls, ∀ key, call.drops key = false) → ∀ key, (v.cache c).has key = true ↔
      (∃ markup, .set key markup ∈ calls) ∧
        ((uses calls).takeWhile (· ≠ key)).toFinset.card < (v.cache c).maxEntries) ∧
    (∀ key markup, (v.cache c).peek? key = some markup →
      Cache.latest? key calls = some markup) ∧
    (∀ later earlier, calls = later ++ earlier → (after earlier).size ≤ (v.cache c).maxEntries) ∧
    (∀ later call earlier key, calls = later ++ call :: earlier →
      (after earlier).has key = true → (after (call :: earlier)).has key = false →
      call.drops key = true ∨
        (∃ stored markup, call = .set stored markup ∧ (after earlier).has stored = false) ∧
        (after earlier).size = (v.cache c).maxEntries ∧
        ∀ other, (after earlier).has other = true → other ≠ key →
          (uses earlier).idxOf other < (uses earlier).idxOf key) ∧
    (∀ later call earlier key, calls = later ++ call :: earlier → call.drops key = true →
      (∀ markup, .set key markup ∉ later) → (v.cache c).has key = false) ∧
    (v.cache c).hits + (v.cache c).misses = calls.countP Cache.Call.asks ∧
    ∀ key render f t, (v.cache c).has key = false →
      perform render (v.setCache c { v.cache c with misses := (v.cache c).misses + 1 }, own') =
        (.error f, t) →
      perform (getOrRender c key render) (v, own') = (.error f, t) := by
  intro after uses
  have hcache : v.cache c = after calls := by
    obtain ⟨hc, rfl⟩ := Prod.mk.inj hopen
    obtain rfl := Except.ok.inj hc
    have hnew : (w₀.caches.push (Cache.empty requested))[w₀.caches.size]? =
        some (Cache.empty requested) := Array.getElem?_push_size
    have hafter := h.cache_eq hnew
    rw [hrun] at hafter
    exact World.cache_eq hafter
  have hmax : (v.cache c).maxEntries = Cache.boundFor requested := by
    rw [hcache]
    exact Cache.maxEntries_replay requested calls
  refine ⟨hcache, ?_, fun hdrops key => ?_, fun key markup hmarkup => ?_,
    fun later earlier _ => ?_, fun later call earlier key _ hbefore hafter => ?_,
    fun later call earlier key hcalls hdrops hlater => ?_, ?_,
    fun key render f t hhas hrender => ?_⟩
  · exact hcache.trans (Cache.replay_filter_peeks ..).symm
  · rw [hmax, hcache]
    exact Cache.has_replay_iff requested hdrops key
  · rw [hcache] at hmarkup
    exact Cache.latest?_of_mem requested (Cache.mem_entries_of_peek? hmarkup)
  · rw [hmax, ← Cache.maxEntries_replay requested earlier]
    exact Cache.size_replay_le requested earlier
  · rw [hmax]
    exact Cache.oldest_of_evicted requested hbefore hafter
  · have habsent : (call.apply (after earlier)).has key = false := Cache.absent_of_drops hdrops
    rw [hcache, hcalls]
    exact (congrArg (Cache.has · key) (Cache.replay_append _ later (call :: earlier))).trans
      (Cache.absent_of_not_stored habsent hlater)
  · rw [hcache]
    exact Cache.counts_replay requested calls
  · rw [perform_getOrRender_missing hhas, Cache.lookup_of_not_has hhas, hrender]

/-- Stores two entries in a cache of two and uses the first. Then it requests a page whose rendering
requests the same page, and one whose rendering fails. -/
def useTwice (c : CacheId) : Session Unit Rendered := do
  let store (key : String) := updateCache c fun cache => ((), cache.set key ⟨key, [], true⟩)
  monadLift (store "menu")
  monadLift (store "foot")
  let _ ← monadLift (updateCache c fun cache => cache.get "menu")
  let _ ← getOrRender c "page" do
    let _ ← getOrRender c "page" (pure ⟨"inner", [], true⟩)
    pure ⟨"outer", [], true⟩
  getOrRender c "next" (throw .textTooLong)

/-- The entry that was not used gave way to the page, under which is what its rendering came to. -/
theorem keeps_recent_of_useTwice : ∃ w v,
    perform (openCache (some (.ofNat 2))) {} = (.ok ⟨0⟩, w) ∧
    Uses ⟨0⟩ (useTwice ⟨0⟩) (w, ()) [.ask "next", .set "page" ⟨"outer", [], true⟩,
      .set "page" ⟨"inner", [], true⟩, .ask "page", .ask "page", .get "menu",
      .set "foot" ⟨"foot", [], true⟩, .set "menu" ⟨"menu", [], true⟩] ∧
    perform (useTwice ⟨0⟩) (w, ()) = (.error .textTooLong, v, ()) ∧
    (v.cache ⟨0⟩).has "menu" = true ∧ (v.cache ⟨0⟩).has "foot" = false ∧
    (v.cache ⟨0⟩).hits + (v.cache ⟨0⟩).misses = 3 := by
  have hopen : perform (openCache (some (.ofNat 2))) {} =
    (.ok ⟨0⟩, { caches := #[Cache.empty (some (.ofNat 2))] }) := rfl
  have huses : Uses ⟨0⟩ (useTwice ⟨0⟩) ({ caches := #[Cache.empty (some (.ofNat 2))] }, ())
      ((((([] ++ [.ask "next"]) ++ (.set "page" ⟨"outer", [], true⟩ ::
        (([] ++ (.set "page" ⟨"inner", [], true⟩ :: ([] ++ [.ask "page"]))) ++ [.ask "page"]))) ++
        [.get "menu"]) ++ [.set "foot" ⟨"foot", [], true⟩]) ++
        [.set "menu" ⟨"menu", [], true⟩]) := by
    refine .andThen (.set ..) rfl (.andThen (.set ..) rfl (.andThen (.get ..) rfl ?_))
    refine .andThen
      (.rendered rfl (.andThen (.rendered rfl (.done ..) rfl) rfl (.done ..)) rfl) rfl ?_
    exact .thrown rfl (.fail ..) rfl
  have hrun : perform (useTwice ⟨0⟩) ({ caches := #[Cache.empty (some (.ofNat 2))] }, ()) =
    (.error .textTooLong, _, ()) := rfl
  obtain ⟨-, -, hpresent, -, -, -, -, hcounts, -⟩ := Uses.keeps_recent hopen huses hrun
  have hpresent := hpresent (by simp [Cache.Call.drops])
  refine ⟨_, _, hopen, huses, hrun, ?_, ?_, hcounts⟩
  · refine (hpresent "menu").mpr ⟨⟨⟨"menu", [], true⟩, by simp⟩, ?_⟩
    decide
  · rw [Bool.eq_false_iff, ne_eq, hpresent "foot"]
    rintro ⟨-, hfew⟩
    revert hfew
    decide

end MarkupArena
