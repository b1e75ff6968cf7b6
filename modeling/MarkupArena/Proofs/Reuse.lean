import MarkupArena.Proofs.Pooling

/-! What is left in an arena that is lent again: nothing, unless somebody worked on it while it lay
idle. A pool resets an arena when it takes it back and does not look at it again when it lends it,
so what is stored in an idle arena reaches the next holder. -/
namespace MarkupArena

namespace World

/-- An operation that spares an arena while it lies idle: it works on no arena, on another, or on
this one while it is in hand. -/
inductive Spares (a : ArenaId) (w : World) : World → Prop where
  | aside {α : Type} {act : Action α} : WorksAside act → Spares a w (perform act w).2
  | use {α : Type} {b : ArenaId} {act : Action α} :
      WorksOn b act → (b = a → w.InHand a) → Spares a w (perform act w).2

/-- Operations brought a world about from nothing, and none worked on an arena while it lay idle.
Other arenas may have fared worse. -/
def Spared (a : ArenaId) (w : World) : Prop := Relation.ReflTransGen (Spares a) {} w

/-- As long as an arena lies idle, it is empty. -/
def EmptyIdle (w : World) (a : ArenaId) : Prop :=
  ∀ p, a ∈ (w.pool p).idle → (w.arena a).nodes = #[] ∧ (w.arena a).links = []

section
variable {a : ArenaId} {w w' : World}

theorem Spares.transfer (h : Spares a w w') : w.Transfer w' := by
  cases h with
  | aside hact => exact hact.transfer w
  | use hact _ => exact hact.transfer w

/-- An arena that goes on to lie idle is not touched. -/
theorem Spares.arena_eq (h : Spares a w w') (hw : w.Placed) {p : PoolId}
    (hidle : a ∈ (w.pool p).idle) : w'.arena a = w.arena a := by
  cases h with
  | aside hact =>
    rcases hact.arena (hw.opened p a (List.mem_append_left _ hidle)) with hsame | ⟨-, q, hleased⟩
    · exact hsame
    · exact absurd hleased (hw.not_leased hidle q)
  | @use α b act hact hhand =>
    have hkept := (keepsBut_of_worksOn hact w w (.refl b w)).1
    apply hkept.arena
    rintro rfl
    exact hw.not_idle (hhand rfl) p hidle

theorem Spares.emptyIdle (h : Spares a w w') (hw : w.Placed) (hempty : w.EmptyIdle a) :
    w'.EmptyIdle a := by
  intro q hq
  obtain ⟨p, hturns⟩ := h.transfer.turns
  rcases (hturns q).mem_idle hq with hidle | ⟨hleased, hnext⟩
  · rw [h.arena_eq hw hidle]
    exact hempty q hidle
  · rw [hnext (hw.opened q a (List.mem_append_right _ hleased))]
    exact ⟨rfl, rfl⟩

theorem Spared.emptyIdle (h : Spared a w) : w.Placed ∧ w.EmptyIdle a := by
  induction h with
  | refl => exact ⟨placed_empty, fun _ hidle => (List.not_mem_nil hidle).elim⟩
  | tail _ hstep ih =>
    obtain ⟨hplaced, hempty⟩ := ih
    exact ⟨hplaced.transfer hstep.transfer, hstep.emptyIdle hplaced hempty⟩

/-- Nothing can be seen from an arena without nodes and links. -/
theorem resolve_ne_ok (hnodes : (w.arena a).nodes = #[]) (hlinks : (w.arena a).links = [])
    (h : Handle) (node : Node) : w.resolve a h ≠ .ok node := by
  intro hr
  obtain ⟨b, hreach, hold⟩ := resolve_eq_ok_iff.mp hr
  rcases hreach.cases_head with rfl | ⟨c, hlink, -⟩
  · obtain ⟨slot, -, -, hnode⟩ := hold
    simp [hnodes] at hnode
  · simp [LinkedTo, hlinks] at hlink

end

/-- An arena comes without nodes and links, and no handle resolves there, unless it was an idle one
and somebody worked on it while it lay idle. -/
theorem empty_of_acquire (w : World) (p : PoolId) :
    ∃ a w', perform (acquire p) w = (.ok a, w') ∧ ((a ∈ (w.pool p).idle → Spared a w) →
      (w'.arena a).nodes = #[] ∧ (w'.arena a).links = [] ∧
        ∀ h node, w'.resolve a h ≠ .ok node) := by
  rw [perform_acquire]
  cases hidle : (w.pool p).idle with
  | nil =>
    refine ⟨_, _, rfl, fun _ => ?_⟩
    have hblank := (w.blank_opening (w.pool p).options.arena (w.pool p).listener).lend p [] false
    exact ⟨hblank.nodes, hblank.links, resolve_ne_ok hblank.nodes hblank.links⟩
  | cons a rest =>
    refine ⟨a, _, rfl, fun hspared => ?_⟩
    obtain ⟨-, hempty⟩ := (hspared List.mem_cons_self).emptyIdle
    obtain ⟨hnodes, hlinks⟩ := hempty p (hidle ▸ List.mem_cons_self)
    have hsame := arena_congr (w.arenas_lend p a rest true) a
    rw [← hsame] at hnodes hlinks
    exact ⟨hnodes, hlinks, resolve_ne_ok hnodes hlinks⟩

end World

theorem spared_usedPool : World.Spared ⟨0⟩ usedPool := by
  have hopen : World.Spared ⟨0⟩ (perform (openPool {} none) {}).2 :=
    .single (.aside (.openPool _ _))
  have hlent := hopen.tail (.aside (.acquire ⟨0⟩))
  have hused := hlent.tail (.use (b := ⟨0⟩) (.text "used") fun _ =>
    .inl ⟨⟨0⟩, List.mem_singleton.mpr rfl⟩)
  exact hused.tail (.aside (.release ⟨0⟩ ⟨0⟩))

/-- The arena had a text in it before it was given back. -/
theorem empty_of_acquire_usedPool : World.Spared ⟨0⟩ usedPool ∧
    usedPool.Issued (ArenaId.handle ⟨0⟩ 0 0) ∧
    ∃ w', perform (acquire ⟨0⟩) usedPool = (.ok ⟨0⟩, w') ∧ (w'.arena ⟨0⟩).nodes = #[] ∧
      ∀ node, w'.resolve ⟨0⟩ (ArenaId.handle ⟨0⟩ 0 0) ≠ .ok node := by
  have hissued : usedPool.Issued (ArenaId.handle ⟨0⟩ 0 0) :=
    ⟨⟨0⟩, 0, 0, 0, by decide, rfl, by decide, by decide⟩
  obtain ⟨a, w', hrun, hempty⟩ := World.empty_of_acquire usedPool ⟨0⟩
  have hsame : a = ⟨0⟩ := by
    have hlent : (perform (acquire ⟨0⟩) usedPool).1 = .ok ⟨0⟩ := rfl
    rw [hrun] at hlent
    exact Except.ok.inj hlent
  subst hsame
  obtain ⟨hnodes, -, hnone⟩ := hempty fun _ => spared_usedPool
  exact ⟨spared_usedPool, hissued, w', hrun, hnodes, hnone _⟩

/-- Stores a text in an arena that was given back. -/
def workAfterRelease : Session Unit Handle := do
  let p ← monadLift (openPool {} none)
  let a ← monadLift (acquire p)
  monadLift (release p a)
  monadLift (allocate a (.text "kept"))

def keptPool : World := (perform workAfterRelease ({}, ())).2.1

theorem reachable_keptPool : keptPool.Reachable := by
  refine ⟨Unit, Handle, workAfterRelease, (), (), .ok (ArenaId.handle ⟨0⟩ 1 0), ?_, rfl⟩
  refine .andThen (.call (.openPool _ _)) fun p => ?_
  refine .andThen (.call (.acquire _)) fun a => ?_
  exact .andThen (.call (.release _ _)) fun _ => .call (.allocate _ _)

/-- What was stored in an idle arena is handed to the next holder, and its handle still resolves. -/
theorem kept_of_acquire : ∃ w', keptPool.Reachable ∧ (keptPool.pool ⟨0⟩).idle = [⟨0⟩] ∧
    keptPool.Issued (ArenaId.handle ⟨0⟩ 1 0) ∧
    perform (acquire ⟨0⟩) keptPool = (.ok ⟨0⟩, w') ∧ (w'.arena ⟨0⟩).nodes = #[.text "kept"] ∧
    w'.resolve ⟨0⟩ (ArenaId.handle ⟨0⟩ 1 0) = .ok (.text "kept") := by
  have hold : keptPool.Holds ⟨0⟩ (ArenaId.handle ⟨0⟩ 1 0) (.text "kept") := ⟨0, 0, rfl, rfl⟩
  refine ⟨_, reachable_keptPool, rfl, hold.issued, rfl, rfl, ?_⟩
  apply World.Holds.resolve
  exact ⟨0, 0, rfl, rfl⟩

end MarkupArena
