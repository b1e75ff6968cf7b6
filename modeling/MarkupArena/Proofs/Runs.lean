import MarkupArena.Proofs.Client
import MarkupArena.Proofs.Leasing
import MarkupArena.Render.Cached

/-! All that clients can do, and the worlds they can bring about. -/
namespace MarkupArena

/-- The operations on a world, and the record of a call site, the one step inside them that is not
an operation itself: what holds after any operation holds amid them as well. Handles and nodes that
they are given may be made up. -/
inductive Operation : {α : Type} → Action α → Prop where
  | addListener : Operation addListener
  | openArena (options : ArenaOptions) (listener : Option Listener) :
      Operation (openArena options listener)
  | openPool (options : PoolOptions) (listener : Option Listener) :
      Operation (openPool options listener)
  | openCache (maxEntries : Option Number) : Operation (openCache maxEntries)
  | updateCache {α : Type} (c : CacheId) (step : Cache → α × Cache) :
      Operation (updateCache c step)
  | allocate (a : ArenaId) (node : Node) : Operation (allocate a node)
  | link (a source : ArenaId) : Operation (link a source)
  | graft (a source : ArenaId) (h : Handle) : Operation (graft a source h)
  | reset (a : ArenaId) : Operation (reset a)
  | acquire (p : PoolId) : Operation (acquire p)
  | release (p : PoolId) (a : ArenaId) : Operation (release p a)
  | text (a : ArenaId) (value : String) : Operation (Build.text a value)
  | rendered (a : ArenaId) (markup : Rendered) : Operation (Build.rendered a markup)
  | fragment (a : ArenaId) (children : List Child) : Operation (Build.fragment a children)
  | element (a : ArenaId) (site : CallSite) (tag : String) (input : AttributeInput)
      (children : List Child) : Operation (Build.element a site tag input children)
  | recordSite (a : ArenaId) (tag : String) (site : CallSite) (given : List Attribute) :
      Operation (Build.recordSite a tag site given)
  | realize (a : ArenaId) (description : Description) : Operation (Build.realize a description)
  | withChildren (a : ArenaId) (e : Element) (children : List Handle) :
      Operation (Build.withChildren a e children)
  | lines (a : ArenaId) (site : CallSite) (value : String) (tab : Build.Tab)
      (separator : String) : Operation (Build.lines a site value tab separator)
  | plainText (a : ArenaId) (h : Handle) : Operation (plainText a h)

/-- The operations that reset no arena. -/
inductive Addition : {α : Type} → Action α → Prop where
  | addListener : Addition addListener
  | openArena (options : ArenaOptions) (listener : Option Listener) :
      Addition (openArena options listener)
  | openPool (options : PoolOptions) (listener : Option Listener) :
      Addition (openPool options listener)
  | openCache (maxEntries : Option Number) : Addition (openCache maxEntries)
  | updateCache {α : Type} (c : CacheId) (step : Cache → α × Cache) : Addition (updateCache c step)
  | allocate (a : ArenaId) (node : Node) : Addition (allocate a node)
  | link (a source : ArenaId) : Addition (link a source)
  | graft (a source : ArenaId) (h : Handle) : Addition (graft a source h)
  | acquire (p : PoolId) : Addition (acquire p)
  | text (a : ArenaId) (value : String) : Addition (Build.text a value)
  | rendered (a : ArenaId) (markup : Rendered) : Addition (Build.rendered a markup)
  | fragment (a : ArenaId) (children : List Child) : Addition (Build.fragment a children)
  | element (a : ArenaId) (site : CallSite) (tag : String) (input : AttributeInput)
      (children : List Child) : Addition (Build.element a site tag input children)
  | recordSite (a : ArenaId) (tag : String) (site : CallSite) (given : List Attribute) :
      Addition (Build.recordSite a tag site given)
  | realize (a : ArenaId) (description : Description) : Addition (Build.realize a description)
  | withChildren (a : ArenaId) (e : Element) (children : List Handle) :
      Addition (Build.withChildren a e children)
  | lines (a : ArenaId) (site : CallSite) (value : String) (tab : Build.Tab) (separator : String) :
      Addition (Build.lines a site value tab separator)
  | plainText (a : ArenaId) (h : Handle) : Addition (plainText a h)

/-- Some client, with whatever state of its own, turns one world into the other. -/
def World.Leads (w w' : World) : Prop :=
  ∃ (σ α : Type) (work : Session σ α) (own own' : σ) (outcome : Except Failure α),
    Client Operation (fun _ => True) (fun _ => True) work ∧
      perform work (w, own) = (outcome, w', own')

/-- Some client turns one world into the other and resets no arena. -/
def World.Adds (w w' : World) : Prop :=
  ∃ (σ α : Type) (work : Session σ α) (own own' : σ) (outcome : Except Failure α),
    Client Addition (fun _ => True) (fun _ => True) work ∧
      perform work (w, own) = (outcome, w', own')

/-- The worlds that clients can bring about from nothing. -/
def World.Reachable (w : World) : Prop := World.Leads {} w

section
variable {inv : World → Prop} (hgrow : ∀ w w', World.Growth w w' → inv w → inv w')
include hgrow

theorem invariant_aside {α : Type} {work : Action α}
    (h : ∀ w, (perform work w).2.arenas = w.arenas ∧ (perform work w).2.stored = w.stored) :
    Invariant inv work :=
  fun w hw => ⟨hgrow w _ (.aside (h w).1 (h w).2.ge) hw, fun _ _ => True.intro⟩

theorem invariant_openArena (options : ArenaOptions) (listener : Option Listener) :
    Invariant inv (openArena options listener) :=
  fun w hw => ⟨hgrow w _ (.openArena options listener) hw, fun _ _ => True.intro⟩

theorem invariant_acquire (p : PoolId) : Invariant inv (acquire p) := by
  have hlend : ∀ w a idle reused, inv w → inv (w.lend p a idle reused) := fun w _ _ _ =>
    hgrow w _ (.aside (World.arenas_lend ..) (World.stored_lend ..).ge)
  intro w hw
  refine ⟨?_, fun _ _ => True.intro⟩
  rw [perform_acquire]
  split
  · exact hlend w _ _ _ hw
  · exact hlend _ _ _ _ (hgrow w _ (.openArena _ _) hw)

/-- What stands every change that adds to a world stands every operation that resets no arena. -/
theorem Addition.invariant {α : Type} {act : Action α} (h : Addition act) : Invariant inv act := by
  have hs : Stands inv (fun _ => True) :=
    stands_of_growth (fun _ _ _ _ _ _ => True.intro) hgrow
  cases h with
  | addListener => exact invariant_aside hgrow fun w => ⟨rfl, rfl⟩
  | openArena options listener => exact invariant_openArena hgrow options listener
  | openPool => exact invariant_aside hgrow fun w => ⟨rfl, rfl⟩
  | openCache => exact invariant_aside hgrow fun w => ⟨rfl, rfl⟩
  | updateCache => exact invariant_aside hgrow fun w => ⟨rfl, rfl⟩
  | allocate a node => exact invariant_allocate hgrow a node
  | link a source => exact (hs.at a).link_to source
  | graft a source handle => exact (hs.at a).graft source handle
  | acquire p => exact invariant_acquire hgrow p
  | text a value => exact hs.text a value
  | rendered a markup => exact hs.rendered a markup
  | fragment a children => exact (hs.at a).makeFragment children
  | element a site tag input children => exact (hs.at a).makeElement site tag input children
  | recordSite a tag site given => exact (hs.at a).recordSite tag site given
  | realize a description => exact (hs.at a).realize description
  | withChildren a e children => exact hs.copy a e children True.intro
  | lines a site value tab separator => exact (hs.at a).lines site value tab separator
  | plainText a handle => exact (hs.at a).plainText handle

end

section
variable {inv : World → Prop} (hinv : ∀ w w', World.Step w w' → inv w → inv w')
include hinv

theorem invariant_reset (a : ArenaId) : Invariant inv (reset a) := by
  intro w hw
  refine ⟨?_, fun _ _ => True.intro⟩
  have hnext := hinv w _ (.reset a) hw
  exact hinv _ _ (.growth (.aside (World.arenas_tell ..) (World.stored_tell ..).ge)) hnext

theorem invariant_release (p : PoolId) (a : ArenaId) : Invariant inv (release p a) := by
  have hgrow : ∀ w w', World.Growth w w' → inv w → inv w' := fun w w' h => hinv w w' (.growth h)
  intro w hw
  refine ⟨?_, fun _ _ => True.intro⟩
  by_cases ha : a ∈ (w.pool p).leased
  · rw [perform_release ha]
    have herased : inv (w.setPool p { w.pool p with leased := (w.pool p).leased.erase a }) :=
      hgrow w _ (.aside rfl le_rfl) hw
    have htaken : inv (w.takeBack p a) := (invariant_reset hinv a _ herased).1
    exact hgrow _ _ (.aside (World.arenas_putAway ..) (World.stored_putAway ..).ge) htaken
  · rw [perform_release_of_not_mem ha]
    exact hw

/-- What stands every elementary change stands every operation. -/
theorem Operation.invariant {α : Type} {act : Action α} (h : Operation act) :
    Invariant inv act := by
  cases h with
  | reset a => exact invariant_reset hinv a
  | release p a => exact invariant_release hinv p a
  | _ => exact Addition.invariant (fun w w' h => hinv w w' (.growth h)) (by constructor)

end

/-- One more call leads on, whether the work before it failed or not. -/
theorem World.Leads.call {w w' : World} (h : w.Leads w') {α : Type} {act : Action α}
    (hact : Operation act) : w.Leads (perform act w').2 := by
  obtain ⟨σ, β, work, own, own', outcome, hclient, hrun⟩ := h
  have hcall : Client Operation (fun _ => True) (fun _ => True)
      (tryFinally work (monadLift act) : Session σ β) := .cleanUp hclient (.call hact)
  have hafter : (perform (tryFinally work (monadLift act) : Session σ β) (w, own)).2 =
      ((perform act w').2, own') := by
    rw [perform_tryFinally, hrun]
    simp only [perform_lift]
    cases (perform act w').1 <;> rfl
  exact ⟨σ, β, _, own, own', _, hcall, Prod.ext rfl hafter⟩

theorem World.leads_self (w : World) : w.Leads w :=
  ⟨Unit, Unit, pure (), (), (), .ok (), .done (), rfl⟩

theorem World.reachable_empty : World.Reachable {} := World.leads_self {}

/-- A node may be stored in an arena that has room for it and sees its children. -/
theorem World.Leads.store {w w' : World} (h : w.Leads w') (a : ArenaId) (node : Node)
    (hlimit : (w'.arena a).exceededLimit? = none)
    (hall : ∀ child ∈ node.children, ∃ n, w'.resolve a child = .ok n) :
    w.Leads (w'.store a node) := by
  have hcall := h.call (.allocate a node)
  rwa [allocate_of_resolves hlimit hall] at hcall

/-- Whatever clients do is a sequence of elementary changes. -/
theorem World.Leads.evolves {w w' : World} (h : w.Leads w') : w.Evolves w' := by
  obtain ⟨σ, α, work, own, own', outcome, hclient, hrun⟩ := h
  have hinv : ∀ u v, World.Step u v → w.Evolves u → w.Evolves v := fun u v hstep hu =>
    hu.tail hstep
  have hs : Stands w.Evolves (fun _ => True) :=
    stands_of_growth (fun _ _ _ _ _ _ => True.intro) fun u v h => hinv u v (.growth h)
  have hkeeps := hclient.invariant (fun a => (hs.at a).revision) fun hop => hop.invariant hinv
  exact (hkeeps.of_perform (s := (w, own)) ⟨.refl, True.intro⟩ hrun).1

/-- Whatever clients do without a reset only adds to a world. -/
theorem World.Adds.extends {w w' : World} (h : w.Adds w') : w.Extends w' := by
  obtain ⟨σ, α, work, own, own', outcome, hclient, hrun⟩ := h
  have hgrow : ∀ u v, World.Growth u v → w.Extends u → w.Extends v := fun u v hstep hu =>
    hu.tail hstep
  have hs : Stands w.Extends (fun _ => True) :=
    stands_of_growth (fun _ _ _ _ _ _ => True.intro) hgrow
  have hkeeps := hclient.invariant (fun a => (hs.at a).revision) fun hop => hop.invariant hgrow
  exact (hkeeps.of_perform (s := (w, own)) ⟨.refl, True.intro⟩ hrun).1

end MarkupArena
