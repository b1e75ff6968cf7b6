import MarkupArena.Proofs.Depth

/-! The order in which nodes were stored. No arena knows it, but whatever is linked, reset or made
up, a node that can be reached from another was stored before it. -/
namespace MarkupArena

/-- A handle of an earlier slot in the same generation of the same arena. -/
def Handle.Precedes (h later : Handle) : Prop :=
  ∃ (a : ArenaId) (generation slot slot' copy copy' : Nat),
    h = a.handle generation slot copy ∧ later = a.handle generation slot' copy' ∧ slot < slot'

namespace World

/-- A handle is a child of the node that another resolves to, seen from some arena. -/
def Under (w : World) (child h : Handle) : Prop :=
  ∃ a node, w.resolve a h = .ok node ∧ child ∈ node.children

/-- A node is stored in a world under a handle, after all its children were seen to resolve, and
another world comes after that. The handle is the one given out then, or one with its numbers. -/
structure Stores (u : World) (a : ArenaId) (node : Node) (h : Handle) (w : World) : Prop where
  opened : u.Opened a
  resolves : ∀ child ∈ node.children, ∃ n, u.resolve a child = .ok n
  handle : ∃ copy, h = (u.store a node).lastHandle a copy
  later : (u.store a node).Evolves w

theorem stores_of_allocate {u v w : World} {a : ArenaId} {node : Node} {h : Handle}
    (ha : u.Opened a) (hrun : perform (allocate a node) u = (.ok h, v)) (hlater : v.Evolves w) :
    u.Stores a node h w := by
  obtain ⟨hhandle, rfl, hall⟩ := allocate_ok hrun
  exact ⟨ha, hall, ⟨0, hhandle⟩, hlater⟩

/-- Whatever a world holds was stored in some world before it. -/
theorem Evolves.exists_stores {w₀ w : World} (h : Evolves w₀ w) {b : ArenaId} {handle : Handle}
    {node : Node} (hold : w.Holds b handle node) :
    w₀.Holds b handle node ∨ ∃ u, Evolves w₀ u ∧ u.Stores b node handle w := by
  induction h with
  | refl => exact .inl hold
  | @tail v w hv hstep ih =>
    rcases hstep.holds_cases hold with hold | ⟨hb, rfl, hhandle, hall⟩
    · rcases ih hold with hold | ⟨u, hu, hstores⟩
      · exact .inl hold
      · exact .inr ⟨u, hu, hstores.opened, hstores.resolves, hstores.handle,
          hstores.later.tail hstep⟩
    · exact .inr ⟨v, hv, hb, hall, hhandle, .refl⟩

namespace Stores

variable {u w : World} {b : ArenaId} {node : Node} {h : Handle} (hs : u.Stores b node h w)
include hs

theorem ages : Ages u w := (u.grows_store b node).ages.trans hs.later.ages

/-- A handle resolves nowhere before its node is stored. -/
theorem not_resolve (c : ArenaId) (n : Node) : u.resolve c h ≠ .ok n := by
  intro hr
  obtain ⟨copy, hhandle⟩ := hs.handle
  have hissued := issued_of_resolve hr
  rw [hhandle] at hissued
  exact not_issued_lastHandle hs.opened node hissued

/-- A child that still resolves was there when its parent was stored. -/
theorem resolve_child {child : Handle} (hchild : child ∈ node.children) {c : ArenaId} {n : Node}
    (hr : w.resolve c child = .ok n) : u.resolve b child = .ok n := by
  obtain ⟨m, hm⟩ := hs.resolves child hchild
  obtain ⟨d, -, hold⟩ := resolve_eq_ok_iff.mp hr
  obtain ⟨e, hreach, hold'⟩ := resolve_eq_ok_iff.mp hm
  have hbefore : u.Holds d child n := hold.of_issued hs.ages hold'.issued
  obtain ⟨rfl, rfl⟩ := hbefore.unique hold'
  exact hm

theorem precedes {child : Handle} (hchild : child ∈ node.children) {c : ArenaId} {n : Node}
    (hr : w.resolve c child = .ok n) (harena : child.arena = h.arena) : child.Precedes h := by
  obtain ⟨d, -, hold⟩ := resolve_eq_ok_iff.mp (hs.resolve_child hchild hr)
  obtain ⟨copy', hlast⟩ := hs.handle
  have hhandle : h = b.handle (u.arena b).generation (u.arena b).size copy' := by
    rw [hlast, lastHandle_store u b node hs.opened]
  have hnumber : Coordinate.count d.number = .count b.number := by
    rw [← hold.arena_eq, harena, hhandle]
    rfl
  obtain rfl := ArenaId.number_injective (Coordinate.count.inj hnumber)
  obtain ⟨slot, copy, hslot, hnode⟩ := hold
  exact ⟨d, _, slot, _, copy, copy', hslot, hhandle, (Array.getElem?_eq_some_iff.mp hnode).1⟩

end Stores

open Classical in
/-- Handles have ranks: what stands under a handle has a lower one, and no rank is above the number
of nodes that were ever stored. -/
theorem Ordered.exists_rank {w : World} (hw : w.Ordered) : ∃ rank : Handle → Nat,
    (∀ child h, w.Under child h → rank child < rank h) ∧ ∀ h, rank h ≤ w.stored := by
  obtain ⟨-, stamp, hbound, horder⟩ := hw
  refine ⟨fun h => if ∃ b n, w.Holds b h n then stamp h + 1 else 0, ?_, ?_⟩
  · rintro child h ⟨a, node, hr, hchild⟩
    obtain ⟨b, -, hold⟩ := resolve_eq_ok_iff.mp hr
    dsimp only
    rw [if_pos (⟨b, node, hold⟩ : ∃ b n, w.Holds b h n)]
    split
    next hheld =>
      obtain ⟨c, n, hc⟩ := hheld
      exact Nat.succ_lt_succ (horder b h node hold child hchild c n hc)
    next => exact Nat.succ_pos _
  · intro h
    dsimp only
    split
    next hheld =>
      obtain ⟨b, n, hold⟩ := hheld
      exact hbound b h n hold
    next => exact Nat.zero_le _

/-- Going from handle to child ends. -/
theorem Ordered.wellFounded_under {w : World} (hw : w.Ordered) : WellFounded w.Under := by
  obtain ⟨rank, hrank, -⟩ := hw.exists_rank
  exact Subrelation.wf (fun {child h} => hrank child h) (measure rank).wf

end World

end MarkupArena
