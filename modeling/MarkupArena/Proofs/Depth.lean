import MarkupArena.Proofs.Issued
import MarkupArena.Proofs.Runs
import MarkupArena.Proofs.Trees

/-! How deep trees are. Children are stored before their parents, so no tree of a world that clients
brought about has more levels than there were nodes stored. -/
namespace MarkupArena

namespace Tree

mutual

/-- The number of levels. -/
def height : Tree → Nat
  | node _ _ children => heights children + 1

/-- The number of levels of the highest among several trees. -/
def heights : List Tree → Nat
  | [] => 0
  | tree :: rest => max tree.height (heights rest)

end

theorem height_le_heights {tree : Tree} {trees : List Tree} (h : tree ∈ trees) :
    tree.height ≤ heights trees := by
  induction trees with
  | nil => cases h
  | cons other rest ih =>
    rw [heights]
    rcases List.mem_cons.mp h with rfl | h
    · exact le_max_left _ _
    · exact (ih h).trans (le_max_right _ _)

theorem heights_le {trees : List Tree} {bound : Nat} (h : ∀ tree ∈ trees, tree.height ≤ bound) :
    heights trees ≤ bound := by
  induction trees with
  | nil => exact Nat.zero_le _
  | cons tree rest ih =>
    rw [heights]
    exact max_le (h tree List.mem_cons_self) (ih fun t ht => h t (List.mem_cons_of_mem _ ht))

end Tree

namespace World

theorem Step.stored_le {w w' : World} (hstep : Step w w') : w.stored ≤ w'.stored := by
  cases hstep with
  | growth hgrowth =>
    cases hgrowth with
    | store => exact Nat.le_succ _
    | link => exact le_rfl
    | openArena => exact le_rfl
    | aside _ hstored => exact hstored
  | reset => exact le_rfl

theorem Evolves.stored_le {w w' : World} (h : Evolves w w') : w.stored ≤ w'.stored := by
  induction h with
  | refl => exact le_rfl
  | tail _ hstep ih => exact ih.trans hstep.stored_le

/-- Stamps for handles: each node has one below the number of nodes ever stored, and its children
have lower ones. -/
structure Stamped (w : World) (stamp : Handle → Nat) : Prop where
  bound : ∀ b h node, w.Holds b h node → stamp h < w.stored
  order : ∀ b h node, w.Holds b h node → ∀ child ∈ node.children,
    ∀ c n, w.Holds c child n → stamp child < stamp h

/-- The children of every node were given out before it was stored. -/
structure Ordered (w : World) : Prop where
  closed : w.Closed
  stamped : ∃ stamp, w.Stamped stamp

theorem ordered_empty : Ordered {} := by
  have hnone : ∀ b h node, ¬ ({} : World).Holds b h node := fun b h node hold =>
    Nat.not_lt_zero _ hold.opened
  exact ⟨fun b h node hold => absurd hold (hnone b h node),
    fun _ => 0, fun b h node hold => absurd hold (hnone b h node),
    fun b h node hold => absurd hold (hnone b h node)⟩

open Classical in
theorem Ordered.step {w w' : World} (hstep : Step w w') (hw : w.Ordered) : w'.Ordered := by
  obtain ⟨hclosed, stamp, hbound, horder⟩ := hw
  -- A new node is stamped with the number of nodes before it, which is above every stamp so far.
  refine ⟨hclosed.step hstep, fun h => if w.Issued h then stamp h else w.stored, ?_, ?_⟩
  · intro b h node hold
    rcases hstep.holds_cases hold with hold | ⟨hb, rfl, ⟨copy, rfl⟩, -⟩
    · rw [if_pos hold.issued]
      exact (hbound b h node hold).trans_le hstep.stored_le
    · rw [if_neg (not_issued_lastHandle hb node)]
      exact Nat.lt_succ_self _
  · intro b h node hold child hchild c n hc
    rcases hstep.holds_cases hold with hold | ⟨hb, rfl, ⟨copy, rfl⟩, hall⟩
    · have hissued := hclosed b h node hold child hchild
      rw [if_pos hissued, if_pos hold.issued]
      exact horder b h node hold child hchild c n (hc.of_issued hstep.ages hissued)
    · obtain ⟨m, hm⟩ := hall child hchild
      have hissued := issued_of_resolve hm
      rw [if_pos hissued, if_neg (not_issued_lastHandle hb node)]
      exact hbound c child n (hc.of_issued hstep.ages hissued)

theorem Evolves.ordered {w w' : World} (h : Evolves w w') (hw : w.Ordered) : w'.Ordered := by
  induction h with
  | refl => exact hw
  | tail _ hstep ih => exact ih.step hstep

theorem Reachable.ordered {w : World} (hw : w.Reachable) : w.Ordered :=
  (Leads.evolves hw).ordered ordered_empty

/-- No stored tree has more levels than there were nodes stored. -/
theorem Ordered.height_le {w : World} (hw : w.Ordered) {a : ArenaId} {tree : Tree}
    (hstored : tree.Stored w a) : tree.height ≤ w.stored := by
  obtain ⟨-, stamp, hbound, horder⟩ := hw
  have hstamp : tree.height ≤ stamp tree.handle + 1 := by
    induction hstored with
    | @node handle stored children hresolve hhandles hchildren ih =>
      obtain ⟨b, -, hold⟩ := resolve_eq_ok_iff.mp hresolve
      refine Nat.succ_le_succ (Tree.heights_le fun child hchild => (ih child hchild).trans ?_)
      have hmem : child.handle ∈ stored.children := hhandles ▸ List.mem_map_of_mem hchild
      obtain ⟨c, -, hc⟩ := resolve_eq_ok_iff.mp (hchildren child hchild).resolve
      exact horder b handle stored hold child.handle hmem c child.root hc
  obtain ⟨b, -, hold⟩ := resolve_eq_ok_iff.mp hstored.resolve
  exact hstamp.trans (hbound b tree.handle tree.root hold)

theorem Ordered.height_le_depthBound {w : World} (hw : w.Ordered) {a : ArenaId} {tree : Tree}
    (hstored : tree.Stored w a) : tree.height ≤ w.depthBound :=
  (hw.height_le hstored).trans (Nat.le_succ _)

end World

/-- Opens two arenas, puts a text into the first and lets the second see it. -/
def shareText : Session Unit Handle := do
  let a ← monadLift (openArena {} none)
  let b ← monadLift (openArena {} none)
  let h ← monadLift (allocate a (.text "old"))
  monadLift (link b a)
  return h

theorem reachable_linkedText : linkedText.Reachable := by
  refine ⟨Unit, Handle, shareText, (), (), .ok oldText.handle, ?_, rfl⟩
  refine .andThen (.call (.openArena _ _)) fun a => ?_
  refine .andThen (.call (.openArena _ _)) fun b => ?_
  refine .andThen (.call (.allocate _ _)) fun h => ?_
  exact .andThen (.call (.link _ _)) fun _ => .done h

end MarkupArena
