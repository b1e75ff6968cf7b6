import MarkupArena.Proofs.Links
import MarkupArena.World.Store

/-! The elementary changes of a world, and what outlasts them. Every operation is a sequence of
these changes; all but a reset only add to a world. -/
namespace MarkupArena

/-- What an arena keeps whatever happens: its generation never goes back, and its nodes stay as
long as its generation does. -/
structure Arena.Ages (x y : Arena) : Prop where
  options : y.options = x.options
  generation_le : x.generation ≤ y.generation
  node : y.generation = x.generation →
    ∀ (slot : Nat) (node : Node), x.nodes[slot]? = some node → y.nodes[slot]? = some node

/-- What an arena keeps until it is reset: its nodes and its links. -/
structure Arena.Grows (x y : Arena) : Prop where
  options : y.options = x.options
  generation : y.generation = x.generation
  node : ∀ (slot : Nat) (node : Node), x.nodes[slot]? = some node → y.nodes[slot]? = some node
  links : x.links ⊆ y.links

namespace Arena

theorem Ages.refl (x : Arena) : Ages x x := ⟨rfl, le_rfl, fun _ _ _ h => h⟩

theorem Ages.trans {x y z : Arena} (h₁ : Ages x y) (h₂ : Ages y z) : Ages x z where
  options := h₂.options.trans h₁.options
  generation_le := h₁.generation_le.trans h₂.generation_le
  node hg slot node hnode := by
    have hle₁ := h₁.generation_le
    have hle₂ := h₂.generation_le
    exact h₂.node (by omega) slot node (h₁.node (by omega) slot node hnode)

theorem Grows.refl (x : Arena) : Grows x x := ⟨rfl, rfl, fun _ _ h => h, List.Subset.refl _⟩

theorem Grows.trans {x y z : Arena} (h₁ : Grows x y) (h₂ : Grows y z) : Grows x z :=
  ⟨h₂.options.trans h₁.options, h₂.generation.trans h₁.generation,
    fun slot node h => h₂.node slot node (h₁.node slot node h),
    List.Subset.trans h₁.links h₂.links⟩

theorem Grows.ages {x y : Arena} (h : Grows x y) : Ages x y :=
  ⟨h.options, h.generation.ge, fun _ => h.node⟩

theorem grows_push (x : Arena) (node : Node) : Grows x (x.push node) := by
  refine ⟨rfl, rfl, ?_, List.Subset.refl _⟩
  intro slot other h
  obtain ⟨hlt, -⟩ := Array.getElem?_eq_some_iff.mp h
  simpa [push, Array.getElem?_push, hlt.ne] using h

theorem grows_addLink (x : Arena) (source : ArenaId) : Grows x (x.addLink source) :=
  ⟨rfl, rfl, fun _ _ h => h, List.subset_append_left _ _⟩

theorem ages_next (x : Arena) : Ages x x.next :=
  ⟨rfl, Nat.le_succ _, fun h => absurd h (Nat.succ_ne_self _)⟩

end Arena

namespace World

theorem arena_modifyArena (w : World) (a b : ArenaId) (change : Arena → Arena) :
    (w.modifyArena a change).arena b =
      if a = b ∧ w.Opened b then change (w.arena b) else w.arena b := by
  by_cases hab : a = b
  · subst hab
    by_cases ha : w.Opened a
    · simpa [ha] using w.arena_modifyArena_self a change ha
    · have ha' : ¬ (w.modifyArena a change).Opened a := by simpa [modifyArena, Opened] using ha
      simp [ha, arena_of_not_opened ha, arena_of_not_opened ha']
  · simpa [hab] using w.arena_modifyArena_of_ne change (Ne.symm hab)

@[simp] theorem opened_modifyArena {w : World} {a b : ArenaId} {change : Arena → Arena} :
    (w.modifyArena a change).Opened b ↔ w.Opened b := by
  simp [modifyArena, Opened]

@[simp] theorem opened_store {w : World} {a b : ArenaId} {node : Node} :
    (w.store a node).Opened b ↔ w.Opened b := opened_modifyArena

theorem arena_store (w : World) (a b : ArenaId) (node : Node) :
    (w.store a node).arena b =
      if a = b ∧ w.Opened b then (w.arena b).push node else w.arena b :=
  w.arena_modifyArena a b (·.push node)

theorem arena_openArena (w : World) (x : Arena) (b : ArenaId) :
    { w with arenas := w.arenas.push x }.arena b =
      if b.index = w.arenas.size then x else w.arena b := by
  simp only [World.arena, Array.getD_eq_getD_getElem?, Array.getElem?_push]
  split <;> rfl

theorem opened_congr {w w' : World} (h : w'.arenas = w.arenas) {a : ArenaId} :
    w'.Opened a ↔ w.Opened a := by
  simp [Opened, h]

theorem arena_congr {w w' : World} (h : w'.arenas = w.arenas) (a : ArenaId) :
    w'.arena a = w.arena a := by
  simp [World.arena, h]

@[simp] theorem stored_tell (w : World) (listener : Option Listener) (event : Event) :
    (w.tell listener event).stored = w.stored := by
  cases listener <;> rfl

@[simp] theorem pools_tell (w : World) (listener : Option Listener) (event : Event) :
    (w.tell listener event).pools = w.pools := by
  cases listener <;> rfl

/-- A change that adds to a world: a node whose children resolve, a link, an arena without nodes
and links, or anything that leaves the arenas alone. -/
inductive Growth (w : World) : World → Prop where
  | store {a : ArenaId} {node : Node} (opened : w.Opened a)
      (resolves : ∀ child ∈ node.children, ∃ n, w.resolve a child = .ok n) :
      Growth w (w.store a node)
  | link (a source : ArenaId) : Growth w (w.modifyArena a (·.addLink source))
  | openArena (options : ArenaOptions) (listener : Option Listener) :
      Growth w { w with arenas := w.arenas.push { options, listener } }
  | aside {w' : World} (arenas : w'.arenas = w.arenas) (stored : w.stored ≤ w'.stored) :
      Growth w w'

/-- One elementary change. -/
inductive Step (w : World) : World → Prop where
  | growth {w' : World} : Growth w w' → Step w w'
  | reset (a : ArenaId) : Step w (w.modifyArena a Arena.next)

/-- A world comes after another along any number of changes. -/
def Evolves : World → World → Prop := Relation.ReflTransGen Step

/-- A world comes after another without a reset. -/
def Extends : World → World → Prop := Relation.ReflTransGen Growth

/-- What one world keeps of another whatever happens in between. -/
structure Ages (w w' : World) : Prop where
  opened : ∀ a, w.Opened a → w'.Opened a
  arena : ∀ a, w.Opened a → (w.arena a).Ages (w'.arena a)

/-- What one world keeps of another as long as no arena is reset. -/
structure Grows (w w' : World) : Prop where
  opened : ∀ a, w.Opened a → w'.Opened a
  arena : ∀ a, w.Opened a → (w.arena a).Grows (w'.arena a)

theorem Ages.refl (w : World) : Ages w w := ⟨fun _ h => h, fun _ _ => .refl _⟩

theorem Ages.trans {u v w : World} (h₁ : Ages u v) (h₂ : Ages v w) : Ages u w :=
  ⟨fun a ha => h₂.opened a (h₁.opened a ha),
    fun a ha => (h₁.arena a ha).trans (h₂.arena a (h₁.opened a ha))⟩

theorem Grows.refl (w : World) : Grows w w := ⟨fun _ h => h, fun _ _ => .refl _⟩

theorem Grows.trans {u v w : World} (h₁ : Grows u v) (h₂ : Grows v w) : Grows u w :=
  ⟨fun a ha => h₂.opened a (h₁.opened a ha),
    fun a ha => (h₁.arena a ha).trans (h₂.arena a (h₁.opened a ha))⟩

theorem Grows.ages {w w' : World} (h : Grows w w') : Ages w w' :=
  ⟨h.opened, fun a ha => (h.arena a ha).ages⟩

theorem grows_modifyArena (w : World) (a : ArenaId) {change : Arena → Arena}
    (h : ∀ x, Arena.Grows x (change x)) : Grows w (w.modifyArena a change) := by
  refine ⟨fun b hb => opened_modifyArena.mpr hb, fun b hb => ?_⟩
  rw [arena_modifyArena]
  split
  · exact h _
  · exact .refl _

theorem grows_store (w : World) (a : ArenaId) (node : Node) : Grows w (w.store a node) :=
  have h := w.grows_modifyArena a fun x => x.grows_push node
  ⟨h.opened, h.arena⟩

theorem Growth.grows {w w' : World} (h : Growth w w') : Grows w w' := by
  cases h with
  | store => exact w.grows_store _ _
  | link a source => exact w.grows_modifyArena a fun x => x.grows_addLink source
  | openArena options listener =>
    refine ⟨fun b hb => by simp only [Opened, Array.size_push] at *; omega, fun b hb => ?_⟩
    rw [arena_openArena, if_neg (Nat.ne_of_lt hb)]
    exact .refl _
  | aside arenas =>
    refine ⟨fun b hb => (opened_congr arenas).mpr hb, fun b _ => ?_⟩
    rw [arena_congr arenas]
    exact .refl _

theorem Grows.options {w w' : World} (h : Grows w w') {a : ArenaId} (ha : w.Opened a) :
    (w'.arena a).options = (w.arena a).options :=
  (h.arena a ha).options

/-- An arena without a budget stays without one. -/
theorem Grows.unlimited {w w' : World} (h : Grows w w') {a : ArenaId} (ha : w.Opened a)
    (hlimit : (w.arena a).options.maxNodes = none) : (w'.arena a).options.maxNodes = none := by
  rw [h.options ha, hlimit]

theorem Holds.grow {w w' : World} (h : Grows w w') {b : ArenaId} {handle : Handle} {node : Node}
    (hold : w.Holds b handle node) : w'.Holds b handle node := by
  have harena := h.arena b hold.opened
  obtain ⟨slot, copy, rfl, hnode⟩ := hold
  exact ⟨slot, copy, by rw [harena.generation], harena.node slot node hnode⟩

theorem InReach.grow {w w' : World} (h : Grows w w') {a b : ArenaId} (hreach : w.InReach a b) :
    w'.InReach a b := by
  refine Relation.ReflTransGen.mono (fun x y hlink => ?_) _ _ hreach
  exact (h.arena x hlink.opened).links hlink

/-- What resolves goes on to resolve to the same node until an arena is reset. -/
theorem resolve_grow {w w' : World} (h : Grows w w') {a : ArenaId} {handle : Handle} {node : Node}
    (hr : w.resolve a handle = .ok node) : w'.resolve a handle = .ok node := by
  obtain ⟨b, hreach, hold⟩ := resolve_eq_ok_iff.mp hr
  exact resolve_eq_ok_iff.mpr ⟨b, hreach.grow h, hold.grow h⟩

theorem holds_lastHandle {w : World} {a : ArenaId} (ha : w.Opened a) (node : Node) :
    (w.store a node).Holds a ((w.store a node).lastHandle a) node := by
  refine ⟨(w.arena a).size, 0, ?_, ?_⟩
  · rw [lastHandle_store w a node ha, arena_store, if_pos ⟨rfl, ha⟩]
    rfl
  · rw [arena_store, if_pos ⟨rfl, ha⟩]
    simp [Arena.push, Arena.size]

theorem arenas_modifyArena_of_not_opened {w : World} {a : ArenaId} (ha : ¬ w.Opened a)
    (change : Arena → Arena) : (w.modifyArena a change).arenas = w.arenas := by
  have hsize : w.arenas.size ≤ a.index := Nat.not_lt.mp ha
  apply Array.ext
  · simp [modifyArena]
  · intro i hi hi'
    have hne : a.index ≠ i := by omega
    simp [modifyArena, Array.getElem_modify, hne]

/-- A node whose children resolve only adds to a world, also where there is no arena for it. -/
theorem growth_store {w : World} {a : ArenaId} {node : Node}
    (hall : ∀ child ∈ node.children, ∃ n, w.resolve a child = .ok n) :
    Growth w (w.store a node) := by
  by_cases ha : w.Opened a
  · exact .store ha hall
  · have hsame : (w.store a node).arenas = w.arenas :=
      arenas_modifyArena_of_not_opened ha (·.push node)
    exact .aside hsame (Nat.le_succ _)

theorem Step.ages {w w' : World} (h : Step w w') : Ages w w' := by
  cases h with
  | growth h => exact h.grows.ages
  | reset a =>
    refine ⟨fun b hb => opened_modifyArena.mpr hb, fun b hb => ?_⟩
    rw [arena_modifyArena]
    split
    · exact Arena.ages_next _
    · exact .refl _

theorem Evolves.ages {w w' : World} (h : Evolves w w') : Ages w w' := by
  induction h with
  | refl => exact .refl _
  | tail _ hstep ih => exact ih.trans hstep.ages

theorem Extends.evolves {w w' : World} (h : Extends w w') : Evolves w w' :=
  Relation.ReflTransGen.mono (fun _ _ => Step.growth) _ _ h

theorem Extends.grows {w w' : World} (h : Extends w w') : Grows w w' := by
  induction h with
  | refl => exact .refl _
  | tail _ hstep ih => exact ih.trans hstep.grows

end World

/-- Two new arenas. -/
def twoArenas : World :=
  { arenas := #[{ options := {}, listener := none }, { options := {}, listener := none }] }

end MarkupArena
