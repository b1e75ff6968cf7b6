import MarkupArena.Proofs.Composing
import MarkupArena.Proofs.Runs

/-! How arenas pass through pools. An operation works on one arena and leaves the pools alone, or it
works on none; then it may open a pool, lend an arena or take one back. Whatever clients do is a
sequence of such transfers, so each arena of a pool stays in one place. -/
namespace MarkupArena

variable {α : Type}

namespace World

/-- What work on one arena leaves alone: the pools, the other arenas, and how many there are. -/
structure KeepsBut (a : ArenaId) (w w' : World) : Prop where
  pools : w'.pools = w.pools
  opened : ∀ b, w'.Opened b ↔ w.Opened b
  options : ∀ b, (w'.arena b).options = (w.arena b).options
  arena : ∀ b, b ≠ a → w'.arena b = w.arena b

theorem KeepsBut.refl (a : ArenaId) (w : World) : KeepsBut a w w :=
  ⟨rfl, fun _ => .rfl, fun _ => rfl, fun _ _ => rfl⟩

section
variable {a : ArenaId} {w₀ w : World} (h : KeepsBut a w₀ w)
include h

theorem KeepsBut.modify {change : Arena → Arena} (hoptions : ∀ x, (change x).options = x.options) :
    KeepsBut a w₀ (w.modifyArena a change) := by
  refine ⟨h.pools, fun b => opened_modifyArena.trans (h.opened b), fun b => ?_, fun b hb => ?_⟩
  · rw [arena_modifyArena]
    split
    · rw [hoptions, h.options]
    · exact h.options b
  · rw [arena_modifyArena_of_ne _ _ hb]
    exact h.arena b hb

theorem KeepsBut.store (node : Node) : KeepsBut a w₀ (w.store a node) := by
  have hpush := h.modify fun x => (rfl : (x.push node).options = x.options)
  exact ⟨hpush.pools, hpush.opened, hpush.options, hpush.arena⟩

end

theorem KeepsBut.aside {a : ArenaId} {w₀ w w' : World} (h : KeepsBut a w₀ w)
    (harenas : w'.arenas = w.arenas) (hpools : w'.pools = w.pools) : KeepsBut a w₀ w' :=
  ⟨hpools.trans h.pools, fun b => (opened_congr harenas).trans (h.opened b),
    fun b => (congrArg Arena.options (arena_congr harenas b)).trans (h.options b),
    fun b hb => (arena_congr harenas b).trans (h.arena b hb)⟩

end World

/-- The operations that work on no arena: those that open something, those of pools, and looks. -/
inductive WorksAside : {α : Type} → Action α → Prop where
  | addListener : WorksAside addListener
  | openArena (options : ArenaOptions) (listener : Option Listener) :
      WorksAside (openArena options listener)
  | openPool (options : PoolOptions) (listener : Option Listener) :
      WorksAside (openPool options listener)
  | openCache (maxEntries : Option Number) : WorksAside (openCache maxEntries)
  | updateCache {α : Type} (c : CacheId) (step : Cache → α × Cache) :
      WorksAside (updateCache c step)
  | acquire (p : PoolId) : WorksAside (acquire p)
  | release (p : PoolId) (a : ArenaId) : WorksAside (release p a)
  | look {α : Type} (look : World → Except Failure α) : WorksAside (observe look)

theorem keepsBut_of_worksOn {a : ArenaId} {act : Action α} (h : WorksOn a act) (w₀ : World) :
    Invariant (w₀.KeepsBut a) act := by
  have hallocate : ∀ node, Invariant (w₀.KeepsBut a) (allocate a node) := fun node w hw =>
    ⟨allocate_leaves hw fun _ => hw.store node, fun _ _ => True.intro⟩
  have htell : ∀ w listener event, w₀.KeepsBut a w → w₀.KeepsBut a (w.tell listener event) :=
    fun w _ _ hw => hw.aside (w.arenas_tell ..) (w.pools_tell ..)
  have hs : StandsAt (w₀.KeepsBut a) (fun _ => True) a :=
    standsAt_of_allocate (fun _ _ _ _ _ _ => True.intro) htell
      (fun w source hw => hw.modify fun _ => rfl) hallocate
  exact h.invariant hs hallocate fun w hw =>
    ⟨htell _ _ _ (hw.modify fun _ => rfl), fun _ _ => True.intro⟩

theorem Operation.works {act : Action α} (h : Operation act) :
    (∃ a, WorksOn a act) ∨ WorksAside act := by
  cases h with
  | addListener => exact .inr .addListener
  | openArena options listener => exact .inr (.openArena options listener)
  | openPool options listener => exact .inr (.openPool options listener)
  | openCache maxEntries => exact .inr (.openCache maxEntries)
  | updateCache c step => exact .inr (.updateCache c step)
  | acquire p => exact .inr (.acquire p)
  | release p a => exact .inr (.release p a)
  | allocate a node => exact .inl ⟨a, .allocate node⟩
  | link a source => exact .inl ⟨a, .link source⟩
  | graft a source handle => exact .inl ⟨a, .graft source handle⟩
  | reset a => exact .inl ⟨a, .reset⟩
  | text a value => exact .inl ⟨a, .text value⟩
  | rendered a markup => exact .inl ⟨a, .rendered markup⟩
  | fragment a children => exact .inl ⟨a, .fragment children⟩
  | element a site tag input children => exact .inl ⟨a, .element site tag input children⟩
  | recordSite a tag site given => exact .inl ⟨a, .recordSite tag site given⟩
  | realize a description => exact .inl ⟨a, .realize description⟩
  | withChildren a e children => exact .inl ⟨a, .withChildren e children⟩
  | lines a site value tab separator => exact .inl ⟨a, .lines site value tab separator⟩
  | plainText a handle => exact .inl ⟨a, .plainText handle⟩

namespace World

/-- What one operation does to the pools: nothing, or it opens one, lends an arena that was idle or
is new, or takes one back. No arena is ever closed. -/
inductive Transfer (w : World) : World → Prop where
  | aside {w' : World} (pools : w'.pools = w.pools) (opened : ∀ a, w.Opened a → w'.Opened a) :
      Transfer w w'
  | openPool (options : PoolOptions) (listener : Option Listener) :
      Transfer w { w with pools := w.pools.push { options, listener } }
  | lendIdle {p : PoolId} {a : ArenaId} {rest : List ArenaId}
      (idle : (w.pool p).idle = a :: rest) : Transfer w (w.lend p a rest true)
  | lendNew {p : PoolId} (idle : (w.pool p).idle = []) :
      Transfer w ((w.opening (w.pool p).options.arena (w.pool p).listener).lend p
        ⟨w.arenas.size⟩ [] false)
  | takeBack {p : PoolId} {a : ArenaId} (leased : a ∈ (w.pool p).leased) :
      Transfer w ((w.takeBack p a).putAway p a)

/-- A world comes after another along any number of transfers. -/
def Transfers : World → World → Prop := Relation.ReflTransGen Transfer

theorem transfer_acquire (w : World) (p : PoolId) :
    w.Transfer (perform (acquire p) w).2 := by
  rw [perform_acquire]
  cases hidle : (w.pool p).idle with
  | nil => exact .lendNew hidle
  | cons a rest => exact .lendIdle hidle

theorem transfer_release (w : World) (p : PoolId) (a : ArenaId) :
    w.Transfer (perform (release p a) w).2 := by
  by_cases ha : a ∈ (w.pool p).leased
  · rw [perform_release ha]
    exact .takeBack ha
  · rw [perform_release_of_not_mem ha]
    exact .aside rfl fun _ h => h

end World

theorem WorksAside.transfer {act : Action α} (h : WorksAside act) (w : World) :
    w.Transfer (perform act w).2 := by
  cases h with
  | addListener => exact .aside rfl fun _ h => h
  | openArena options listener =>
    exact .aside rfl (World.Growth.openArena options listener).grows.opened
  | openPool options listener => exact .openPool options listener
  | openCache => exact .aside rfl fun _ h => h
  | updateCache => exact .aside rfl fun _ h => h
  | acquire p => exact w.transfer_acquire p
  | release p a => exact w.transfer_release p a
  | look look =>
    rw [perform_observe]
    exact .aside rfl fun _ h => h

/-- What works on no arena leaves arenas as they are, but for one that was lent and starts over. -/
theorem WorksAside.arena {act : Action α} (h : WorksAside act) {w : World} {a : ArenaId}
    (ha : w.Opened a) : (perform act w).2.arena a = w.arena a ∨
      (perform act w).2.arena a = (w.arena a).next ∧ ∃ p, a ∈ (w.pool p).leased := by
  cases h with
  | addListener => exact .inl rfl
  | openArena options listener =>
    exact .inl ((w.arena_openArena _ a).trans (if_neg (Nat.ne_of_lt ha)))
  | openPool options listener => exact .inl rfl
  | openCache => exact .inl rfl
  | updateCache => exact .inl rfl
  | acquire p =>
    left
    rw [perform_acquire]
    split
    · exact World.arena_congr (World.arenas_lend ..) a
    · rw [World.arena_congr (World.arenas_lend ..), World.arena_opening,
        if_neg (Nat.ne_of_lt ha)]
  | release p b =>
    by_cases hb : b ∈ (w.pool p).leased
    · rw [perform_release hb, World.arena_congr (World.arenas_putAway ..),
        World.arena_congr (w.arenas_takeBack p b)]
      by_cases hab : a = b
      · subst hab
        exact .inr ⟨w.arena_modifyArena_self a Arena.next ha, p, hb⟩
      · exact .inl (w.arena_modifyArena_of_ne Arena.next hab)
    · rw [perform_release_of_not_mem hb]
      exact .inl rfl
  | look look =>
    rw [perform_observe]
    exact .inl rfl

theorem WorksOn.transfer {a : ArenaId} {act : Action α} (h : WorksOn a act) (w : World) :
    w.Transfer (perform act w).2 := by
  have hkept := (keepsBut_of_worksOn h w w (.refl a w)).1
  exact .aside hkept.pools fun b => (hkept.opened b).mpr

theorem transfer_of_works {act : Action α} (h : (∃ a, WorksOn a act) ∨ WorksAside act) (w : World) :
    w.Transfer (perform act w).2 := by
  rcases h with ⟨a, hon⟩ | haside
  · exact hon.transfer w
  · exact haside.transfer w

theorem Operation.transfer {act : Action α} (h : Operation act) (w : World) :
    w.Transfer (perform act w).2 :=
  transfer_of_works h.works w

namespace World

theorem standsAt_transfers (w₀ : World) (a : ArenaId) :
    StandsAt w₀.Transfers (fun _ => True) a := by
  apply standsAt_of_allocate
  · exact fun _ _ _ _ _ _ => True.intro
  · intro w listener event hw
    exact hw.tail (.aside (w.pools_tell ..) fun b => (opened_congr (w.arenas_tell ..)).mpr)
  · intro w source hw
    exact hw.tail (.aside rfl fun b => opened_modifyArena.mpr)
  · intro node w hw
    exact ⟨hw.tail ((Operation.allocate a node).transfer w), fun _ _ => True.intro⟩

/-- What an invariant of the arenas has to stand, where the storing of a node is guarded by more
than that its children resolve: whatever leaves the arenas alone, new arenas, links, resets, and the
storing of single nodes. -/
structure Endures (inv : World → Prop) : Prop where
  aside : ∀ w w', w'.arenas = w.arenas → w.stored ≤ w'.stored → inv w → inv w'
  opening : ∀ w options listener, inv w → inv (w.opening options listener)
  link : ∀ w a source, inv w → inv (w.modifyArena a (·.addLink source))
  reset : ∀ w a, inv w → inv (w.modifyArena a Arena.next)
  allocate : ∀ a node, Invariant inv (MarkupArena.allocate a node)

namespace Endures

variable {inv : World → Prop} (h : Endures inv)
include h

theorem standsAt (a : ArenaId) : StandsAt inv (fun _ => True) a :=
  standsAt_of_allocate (fun _ _ _ _ _ _ => True.intro)
    (fun w listener event => h.aside w _ (w.arenas_tell listener event) (w.stored_tell ..).ge)
    (fun w source => h.link w a source) (h.allocate a)

theorem worksAside {act : Action α} (hact : WorksAside act) : Invariant inv act := by
  intro w hw
  refine ⟨?_, fun _ _ => True.intro⟩
  cases hact with
  | addListener => exact h.aside w _ rfl le_rfl hw
  | openArena options listener => exact h.opening w options listener hw
  | openPool options listener => exact h.aside w _ rfl le_rfl hw
  | openCache => exact h.aside w _ rfl le_rfl hw
  | updateCache => exact h.aside w _ rfl le_rfl hw
  | acquire p =>
    rw [perform_acquire]
    split
    · exact h.aside w _ (arenas_lend ..) (stored_lend ..).ge hw
    · exact h.aside _ _ (arenas_lend ..) (stored_lend ..).ge (h.opening w _ _ hw)
  | release p a =>
    by_cases ha : a ∈ (w.pool p).leased
    · rw [perform_release ha]
      have hstored : (w.takeBack p a).stored = w.stored := stored_tell ..
      have htaken : inv (w.takeBack p a) :=
        h.aside _ _ (w.arenas_takeBack p a) hstored.ge (h.reset w a hw)
      exact h.aside _ _ (arenas_putAway ..) (stored_putAway ..).ge htaken
    · rw [perform_release_of_not_mem ha]
      exact hw
  | look look =>
    rw [perform_observe]
    exact hw

theorem works {act : Action α} (hact : (∃ a, WorksOn a act) ∨ WorksAside act) :
    Invariant inv act := by
  rcases hact with ⟨a, hon⟩ | haside
  · have hs := h.standsAt a
    apply hon.invariant hs (h.allocate a)
    intro w hw
    exact ⟨hs.tell _ _ _ (h.reset w a hw), fun _ _ => True.intro⟩
  · exact h.worksAside haside

theorem operation {act : Action α} (hact : Operation act) : Invariant inv act := h.works hact.works

/-- Whatever clients do, such an invariant lasts. -/
theorem leads {w w' : World} (hleads : w.Leads w') (hw : inv w) : inv w' := by
  obtain ⟨σ, α, work, own, own', outcome, hclient, hrun⟩ := hleads
  have hkeeps := hclient.invariant (fun a => (h.standsAt a).revision) fun hop => h.operation hop
  exact (hkeeps.of_perform (s := (w, own)) ⟨hw, True.intro⟩ hrun).1

end Endures

/-- Whatever clients do is a sequence of transfers. -/
theorem Leads.transfers {w w' : World} (h : w.Leads w') : w.Transfers w' := by
  obtain ⟨σ, α, work, own, own', outcome, hclient, hrun⟩ := h
  have hkeeps := hclient.invariant (fun a => (w.standsAt_transfers a).revision) fun hop v hv =>
    ⟨hv.tail (hop.transfer v), fun _ _ => True.intro⟩
  exact (hkeeps.of_perform (s := (w, own)) ⟨.refl, True.intro⟩ hrun).1

end World

end MarkupArena
