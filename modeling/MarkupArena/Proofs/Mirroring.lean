import MarkupArena.Proofs.Twins

/-! The operations on two arenas that hold the same: given handles that stand for each other, they
store the same and give out handles that stand for each other, or fail alike. -/
namespace MarkupArena

variable {t : Twins} {pools : Array Pool}

section
variable {w w' : World} (hm : Mirrors t pools w w')
include hm

theorem Mirrors.below {h h' : Handle} {node : Node} (hsame : t.Same h h')
    (hr : w.resolve t.left h = .ok node) : t.Below (w.arena t.left).size h h' := by
  obtain ⟨slot, hat⟩ := hsame
  have hresolve := hm.resolve hat
  rw [hr] at hresolve
  obtain ⟨_, -, hslot, -⟩ := hresolve.of_ok
  exact ⟨slot, hslot, hat⟩

theorem Mirrors.announce (site : Option CallSite) (tag : String) (given : List Attribute) :
    Mirrors t pools (Build.announce w t.left site tag given)
      (Build.announce w' t.right site tag given) :=
  hm.aside (Build.arenas_announce ..) (Build.pools_announce ..) (Build.stored_announce ..).ge
    (Build.arenas_announce ..) (Build.stored_announce ..).ge

end

namespace Build

end Build

namespace Revision

section
variable {σ : Type} {Own : σ → σ → Prop} {visitor visitor' : Visitor (Session σ)}
  (hvisitor : ∀ node node' h h' depth, node.Corresponds t.Same node' → t.Same h h' →
    Agrees (Jointly (Mirrors t pools) Own) t.SameChange (visitor node h depth)
      (visitor' node' h' depth))
include hvisitor

end

end Revision

end MarkupArena
