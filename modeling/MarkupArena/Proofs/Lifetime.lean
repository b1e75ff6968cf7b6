import MarkupArena.Proofs.Crossing

/-! How long a stored node keeps its children in sight. A link lasts as long as the arena that has
it is not reset, so a child stays in sight while one chain of links to it lasts. There is no other
bond between a node and its children: where all chains are cut, the child is out of sight, though
neither its own arena nor that of the node was reset. -/
namespace MarkupArena

namespace World

/-- A link of one world whose arena was not reset until another. -/
def KeptLink (u w : World) (a b : ArenaId) : Prop :=
  u.LinkedTo a b ∧ (w.arena a).generation = (u.arena a).generation

theorem Step.links_subset {w w' : World} (hstep : Step w w') {a : ArenaId} (ha : w.Opened a)
    (hgen : (w'.arena a).generation = (w.arena a).generation) :
    (w.arena a).links ⊆ (w'.arena a).links := by
  cases hstep with
  | growth hgrowth => exact (hgrowth.grows.arena a ha).links
  | reset b =>
    rw [arena_modifyArena] at hgen ⊢
    by_cases hb : b = a ∧ w.Opened a
    · rw [if_pos hb] at hgen
      exact absurd hgen (Nat.succ_ne_self _)
    · rw [if_neg hb]
      exact List.Subset.refl _

/-- Links are dropped by resets only. -/
theorem Evolves.links_subset {u w : World} (h : u.Evolves w) {a : ArenaId} (ha : u.Opened a)
    (hgen : (w.arena a).generation = (u.arena a).generation) :
    (u.arena a).links ⊆ (w.arena a).links := by
  induction h with
  | refl => exact List.Subset.refl _
  | @tail v w hv hstep ih =>
    have hopened := (Evolves.ages hv).opened a ha
    have hbefore := ((Evolves.ages hv).arena a ha).generation_le
    have hafter := (hstep.ages.arena a hopened).generation_le
    have hkept : (v.arena a).generation = (u.arena a).generation := by omega
    have hsame : (w.arena a).generation = (v.arena a).generation := by omega
    exact List.Subset.trans (ih hkept) (hstep.links_subset hopened hsame)

/-- What was in reach along kept links still is. -/
theorem Evolves.inReach {u w : World} (h : u.Evolves w) {a b : ArenaId}
    (hpath : Relation.ReflTransGen (u.KeptLink w) a b) : w.InReach a b := by
  apply Relation.ReflTransGen.mono _ _ _ hpath
  intro x y hkept
  obtain ⟨hlink, hgen⟩ := hkept
  exact h.links_subset hlink.opened hgen hlink

/-- A node that an arena held is held as long as the arena is not reset. -/
theorem Holds.ages {u w : World} (hages : Ages u w) {c : ArenaId} {h : Handle} {node : Node}
    (hold : u.Holds c h node) (hgen : (w.arena c).generation = (u.arena c).generation) :
    w.Holds c h node := by
  have harena := hages.arena c hold.opened
  obtain ⟨slot, copy, rfl, hnode⟩ := hold
  exact ⟨slot, copy, by rw [hgen], harena.node hgen slot node hnode⟩

/-- A child that its parent's arena saw when the parent was stored goes on to resolve to the same
node as long as its own arena and those on one chain of links to it, the parent's included, are not
reset, whatever becomes of others. As long as its own arena is not reset, it resolves to that node
wherever links lead to it, and else to nothing, for the reason that they do not. -/
theorem child_lasts {w : World} (hw : w.Reachable) :
    (∀ x h node, w.Holds x h node → ∃ u, Evolves {} u ∧ u.Stores x node h w) ∧
    ∀ (u : World) x node h, u.Stores x node h w → ∀ child ∈ node.children,
      ∃ c n, u.InReach x c ∧ u.Holds c child n ∧
        ((w.arena c).generation = (u.arena c).generation →
          (Relation.ReflTransGen (u.KeptLink w) x c → w.resolve x child = .ok n) ∧
          (w.InReach x c → w.resolve x child = .ok n) ∧
          (¬ w.InReach x c →
            w.resolve x child = .error (.invalidHandle .foreignArena child x))) := by
  constructor
  · intro x h node hold
    rcases (Leads.evolves hw).exists_stores hold with hnone | hstores
    · exact absurd hnone.opened (Nat.not_lt_zero _)
    · exact hstores
  · intro u x node h hs child hchild
    obtain ⟨n, hn⟩ := hs.resolves child hchild
    obtain ⟨c, hreach, hold⟩ := resolve_eq_ok_iff.mp hn
    refine ⟨c, n, hreach, hold, fun hgen => ?_⟩
    have hlater : u.Evolves w := .head (.growth (.store hs.opened hs.resolves)) hs.later
    have hkept : w.Holds c child n := hold.ages hs.ages hgen
    have hseen : w.InReach x c → w.resolve x child = .ok n := fun hreach =>
      resolve_eq_ok_iff.mpr ⟨c, hreach, hkept⟩
    refine ⟨fun hpath => hseen (hlater.inReach hpath), hseen, fun hunseen => ?_⟩
    obtain ⟨slot, copy, rfl, -⟩ := hkept
    exact resolve_of_not_inReach hunseen

end World

/-- The chain with a link past its middle. -/
def bypassedText : World := chainedText.modifyArena ⟨2⟩ (·.addLink ⟨0⟩)

/-- The text was used past the middle before the middle starts over. -/
def bypassed : World :=
  (bypassedText.store ⟨2⟩ (.fragment [oldText.handle])).modifyArena ⟨1⟩ Arena.next

theorem perform_bypassed : perform (allocate ⟨2⟩ (.fragment [oldText.handle])) bypassedText =
    (.ok acrossText.handle, bypassedText.store ⟨2⟩ (.fragment [oldText.handle])) := by
  have hgrows := chainedText.grows_modifyArena ⟨2⟩ fun x => x.grows_addLink ⟨0⟩
  apply allocate_of_resolves rfl
  intro child hchild
  obtain rfl := List.mem_singleton.mp hchild
  exact ⟨_, World.resolve_grow hgrows resolve_chainedText⟩

theorem reachable_bypassed : bypassed.Reachable := by
  have hlink : bypassedText.Reachable := reachable_chainedText.call (.link ⟨2⟩ ⟨0⟩)
  have hcall := hlink.call (.allocate ⟨2⟩ (.fragment [oldText.handle]))
  rw [perform_bypassed] at hcall
  exact hcall.call (.reset ⟨1⟩)

theorem child_lasts_of_bypassed : bypassed.Reachable ∧
    bypassedText.Stores ⟨2⟩ (.fragment [oldText.handle]) acrossText.handle bypassed ∧
    (bypassed.arena ⟨1⟩).generation = (bypassedText.arena ⟨1⟩).generation + 1 ∧
    bypassed.resolve ⟨2⟩ oldText.handle = .ok (.text "old") := by
  have hstores : bypassedText.Stores ⟨2⟩ (.fragment [oldText.handle]) acrossText.handle bypassed :=
    World.stores_of_allocate (by decide) perform_bypassed (.single (.reset ⟨1⟩))
  obtain ⟨-, hlasts⟩ := World.child_lasts reachable_bypassed
  obtain ⟨c, n, -, hold, hkept⟩ := hlasts _ _ _ _ hstores _ (List.mem_singleton.mpr rfl)
  have htext : bypassedText.Holds ⟨0⟩ oldText.handle (.text "old") := ⟨0, 0, rfl, rfl⟩
  obtain ⟨rfl, rfl⟩ := hold.unique htext
  have hlink : bypassedText.LinkedTo ⟨2⟩ ⟨0⟩ := List.mem_pair.mpr (.inr rfl)
  exact ⟨reachable_bypassed, hstores, rfl, (hkept rfl).1 (.single ⟨hlink, rfl⟩)⟩

/-- The arena in the middle of the chain starts over after the text was used across it. -/
def cutOff : World := usedAcross.modifyArena ⟨1⟩ Arena.next

theorem reachable_cutOff : cutOff.Reachable := reachable_usedAcross.call (.reset ⟨1⟩)

theorem stores_cutOff :
    chainedText.Stores ⟨2⟩ (.fragment [oldText.handle]) acrossText.handle cutOff :=
  World.stores_of_allocate (by decide) perform_usedAcross (.single (.reset ⟨1⟩))

theorem inReach_cutOff {b : ArenaId} (h : cutOff.InReach ⟨2⟩ b) : b = ⟨2⟩ ∨ b = ⟨1⟩ := by
  induction h with
  | refl => exact .inl rfl
  | @tail b c _ hlink ih =>
    rcases ih with rfl | rfl
    · exact .inr (List.mem_singleton.mp hlink)
    · exact absurd hlink List.not_mem_nil

/-- The child is lost by a reset of an arena that is neither its own nor its parent's. -/
theorem child_lost_of_cutOff : cutOff.Reachable ∧
    chainedText.Stores ⟨2⟩ (.fragment [oldText.handle]) acrossText.handle cutOff ∧
    chainedText.Holds ⟨0⟩ oldText.handle (.text "old") ∧
    chainedText.resolve ⟨2⟩ oldText.handle = .ok (.text "old") ∧
    (cutOff.arena ⟨0⟩).generation = (chainedText.arena ⟨0⟩).generation ∧
    (cutOff.arena ⟨2⟩).generation = (chainedText.arena ⟨2⟩).generation ∧
    cutOff.resolve ⟨2⟩ oldText.handle =
      .error (.invalidHandle .foreignArena oldText.handle ⟨2⟩) := by
  refine ⟨reachable_cutOff, stores_cutOff, ⟨0, 0, rfl, rfl⟩, resolve_chainedText, rfl, rfl, ?_⟩
  apply World.resolve_of_not_inReach
  intro hreach
  rcases inReach_cutOff hreach with heq | heq
  · cases heq
  · cases heq

end MarkupArena
