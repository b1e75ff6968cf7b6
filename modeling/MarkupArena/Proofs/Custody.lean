import MarkupArena.Proofs.Placing
import MarkupArena.Render.Cached

/-! Who works on an arena. As long as clients work on the arenas of a pool only while they are lent,
each arena is in one place, and those that wait in a pool are empty. -/
namespace MarkupArena

variable {σ α β : Type}

/-- An arena is lent by some pool, or lies idle in none. -/
def World.InHand (w : World) (a : ArenaId) : Prop :=
  (∃ p, a ∈ (w.pool p).leased) ∨ ∀ p, a ∉ (w.pool p).idle

/-- Work that, begun in a state, works on an arena only while it is in hand. Where an operation is
called is told by the state in which it is called. -/
inductive Behaves : {α : Type} → Session σ α → World × σ → Prop where
  | done {α : Type} (x : α) (s : World × σ) : Behaves (pure x) s
  | fail {α : Type} (f : Failure) (s : World × σ) : Behaves (throw f : Session σ α) s
  | andThen {α β : Type} {work : Session σ α} {next : α → Session σ β} {s : World × σ} :
      Behaves work s → (∀ x t, perform work s = (.ok x, t) → Behaves (next x) t) →
      Behaves (work >>= next) s
  | attempt {α : Type} {work : Session σ α} {handler : Failure → Session σ α} {s : World × σ} :
      Behaves work s → (∀ f t, perform work s = (.error f, t) → Behaves (handler f) t) →
      Behaves (tryCatch work handler) s
  | cleanUp {α β : Type} {work : Session σ α} {cleanup : Session σ β} {s : World × σ} :
      Behaves work s → Behaves cleanup (perform work s).2 → Behaves (tryFinally work cleanup) s
  | recollect (s : World × σ) : Behaves recollect s
  | memorize (own : σ) (s : World × σ) : Behaves (memorize own) s
  | aside {α : Type} {act : Action α} (s : World × σ) : WorksAside act → Behaves (monadLift act) s
  | use {α : Type} {a : ArenaId} {act : Action α} {s : World × σ} :
      WorksOn a act → s.1.InHand a → Behaves (monadLift act) s

namespace World

/-- A world that clients brought about from nothing, working on arenas only while they were in
hand. -/
def Orderly (w : World) : Prop :=
  ∃ (σ α : Type) (work : Session σ α) (own own' : σ) (outcome : Except Failure α),
    Behaves work ({}, own) ∧ perform work ({}, own) = (outcome, w, own')

/-- An arena with nothing in it, made with some options. -/
structure Blank (w : World) (a : ArenaId) (options : ArenaOptions) : Prop where
  opened : w.Opened a
  options : (w.arena a).options = options
  nodes : (w.arena a).nodes = #[]
  links : (w.arena a).links = []

/-- The arenas of pools are made with the options of the pool, each is in one place, and those that
are idle are blank. -/
structure Tidy (w : World) : Prop where
  opened : ∀ p, ∀ a ∈ (w.pool p).members, w.Opened a
  options : ∀ p, ∀ a ∈ (w.pool p).members, (w.arena a).options = (w.pool p).options.arena
  nodup : ∀ p, (w.pool p).members.Nodup
  apart : ∀ p q a, a ∈ (w.pool p).members → a ∈ (w.pool q).members → p = q
  blank : ∀ p, ∀ a ∈ (w.pool p).idle, w.Blank a (w.pool p).options.arena

theorem Blank.congr {w w' : World} {a : ArenaId} {options : ArenaOptions} (ha : w.Blank a options)
    (hopened : w.Opened a → w'.Opened a) (harena : w'.arena a = w.arena a) :
    w'.Blank a options := by
  refine ⟨hopened ha.opened, ?_, ?_, ?_⟩ <;> rw [harena]
  · exact ha.options
  · exact ha.nodes
  · exact ha.links

theorem blank_opening (w : World) (options : ArenaOptions) (listener : Option Listener) :
    (w.opening options listener).Blank ⟨w.arenas.size⟩ options := by
  have harena := (w.arena_opening options listener ⟨w.arenas.size⟩).trans (if_pos rfl)
  refine ⟨w.opened_opening options listener, ?_, ?_, ?_⟩ <;> rw [harena]

theorem tidy_empty : Tidy {} :=
  ⟨placed_empty.opened, fun _ _ h => (List.not_mem_nil h).elim, placed_empty.nodup,
    placed_empty.apart, fun _ _ h => (List.not_mem_nil h).elim⟩

/-- An arena in hand lies idle in no pool. -/
theorem Placed.not_idle {w : World} (hw : w.Placed) {a : ArenaId} (ha : w.InHand a) (p : PoolId) :
    a ∉ (w.pool p).idle := by
  rcases ha with ⟨q, hq⟩ | hnone
  · exact fun hp => hw.not_leased hp q hq
  · exact hnone p

section
variable {w w' : World} (hw : w.Tidy)
include hw

theorem Tidy.placed : w.Placed := ⟨hw.opened, hw.nodup, hw.apart⟩

/-- A transfer keeps a world tidy if it keeps the options of arenas and leaves the idle ones
blank. -/
theorem Tidy.transfer (h : w.Transfer w')
    (hoptions : ∀ a, w.Opened a → (w'.arena a).options = (w.arena a).options)
    (hidle : ∀ p, ∀ a ∈ (w.pool p).idle, w'.Blank a (w.pool p).options.arena) : w'.Tidy := by
  have hplaced := hw.placed.transfer h
  obtain ⟨p, hturns⟩ := h.turns
  refine ⟨hplaced.opened, fun q a ha => ?_, hplaced.nodup, hplaced.apart, fun q a ha => ?_⟩
  · rw [(hturns q).options_eq ha]
    rcases (hturns q).mem_members ha with hold | ⟨-, -, -, hmade⟩
    · rw [hoptions a (hw.opened q a hold)]
      exact hw.options q a hold
    · exact hmade
  · rw [(hturns q).options_eq (List.mem_append_left _ ha)]
    rcases (hturns q).mem_idle ha with hold | ⟨hleased, hnext⟩
    · exact hidle q a hold
    · have hmember : a ∈ (w.pool q).members := List.mem_append_right _ hleased
      have hopened := hw.opened q a hmember
      have harena := hnext hopened
      refine ⟨h.opened hopened, ?_, ?_, ?_⟩ <;> rw [harena]
      · exact hw.options q a hmember
      · rfl
      · rfl

theorem Tidy.keepsBut {a : ArenaId} (hk : w.KeepsBut a w') (hidle : ∀ p, a ∉ (w.pool p).idle) :
    w'.Tidy := by
  apply hw.transfer (.aside hk.pools fun b => (hk.opened b).mpr)
  · exact fun b _ => hk.options b
  · intro p b hb
    exact (hw.blank p b hb).congr (hk.opened b).mpr (hk.arena b fun he => hidle p (he ▸ hb))

end

end World

theorem WorksAside.tidy {act : Action α} (h : WorksAside act) {w : World} (hw : w.Tidy) :
    (perform act w).2.Tidy := by
  have htransfer := h.transfer w
  apply hw.transfer htransfer
  · intro a ha
    rcases h.arena ha with hsame | ⟨hnext, -⟩
    · rw [hsame]
    · rw [hnext]
      rfl
  · intro p a ha
    have hblank := hw.blank p a ha
    rcases h.arena hblank.opened with hsame | ⟨-, q, hleased⟩
    · exact hblank.congr htransfer.opened hsame
    · exact absurd hleased (hw.placed.not_leased ha q)

theorem Behaves.tidy {work : Session σ α} {s : World × σ} (h : Behaves work s) (hs : s.1.Tidy) :
    (perform work s).2.1.Tidy := by
  induction h with
  | done => exact hs
  | fail => exact hs
  | @andThen α β work next s _ _ ihwork ihnext =>
    have hwork := ihwork hs
    rw [perform_bind]
    rcases hrun : perform work s with ⟨f | x, t⟩
    · rw [hrun] at hwork
      exact hwork
    · rw [hrun] at hwork
      exact ihnext x t hrun hwork
  | @attempt α work handler s _ _ ihwork ihhandler =>
    have hwork := ihwork hs
    rw [perform_tryCatch]
    rcases hrun : perform work s with ⟨f | x, t⟩
    · rw [hrun] at hwork
      exact ihhandler f t hrun hwork
    · rw [hrun] at hwork
      exact hwork
  | @cleanUp α β work cleanup s _ _ ihwork ihcleanup =>
    have hcleanup := ihcleanup (ihwork hs)
    rw [perform_tryFinally]
    rcases hrun : perform work s with ⟨outcome, t⟩
    rw [hrun] at hcleanup
    rcases hclean : perform cleanup t with ⟨_ | y, u⟩ <;> simp only [hclean] at hcleanup ⊢ <;>
      exact hcleanup
  | recollect => exact hs
  | memorize => exact hs
  | aside s hact => exact hact.tidy hs
  | @use α a act s hact hhand =>
    exact hs.keepsBut (keepsBut_of_worksOn hact s.1 s.1 (.refl a s.1)).1 (hs.placed.not_idle hhand)

theorem World.Orderly.tidy {w : World} (hw : w.Orderly) : w.Tidy := by
  obtain ⟨σ, α, work, own, own', outcome, hbehaves, hrun⟩ := hw
  have htidy := hbehaves.tidy World.tidy_empty
  rw [hrun] at htidy
  exact htidy

end MarkupArena
