import MarkupArena.Proofs.StorageOrder
import MarkupArena.Proofs.Views

/-! Trees that cross arenas. A tree reads the same from every arena that sees all of it, and an
arena that links another sees all that the other sees. As long as no arena is reset, the arena that
gave out a handle sees the whole tree under it, however many links away its parts are. -/
namespace MarkupArena

namespace World

/-- No arena was ever reset: a reset starts the next generation, and none comes back. -/
def Unreset (w : World) : Prop := ∀ a, (w.arena a).generation = 0

/-- The children of every stored node resolve from the arena that holds it. -/
def Intact (w : World) : Prop :=
  ∀ b h node, w.Holds b h node → ∀ child ∈ node.children, ∃ n, w.resolve b child = .ok n

theorem Unreset.of_ages {w w' : World} (hages : Ages w w') (hw : w'.Unreset) : w.Unreset := by
  intro a
  by_cases ha : w.Opened a
  · have hle := (hages.arena a ha).generation_le
    rw [hw a] at hle
    exact Nat.le_zero.mp hle
  · rw [arena_of_not_opened ha]
    rfl

/-- A change after which no arena was ever reset only adds to the world. -/
theorem Step.growth_of_unreset {w w' : World} (hstep : Step w w') (hw : w'.Unreset) :
    Growth w w' := by
  cases hstep with
  | growth hgrowth => exact hgrowth
  | reset a =>
    by_cases ha : w.Opened a
    · have hgen := hw a
      rw [arena_modifyArena_self w a _ ha] at hgen
      exact absurd hgen (Nat.succ_ne_zero _)
    · exact .aside (arenas_modifyArena_of_not_opened ha _) le_rfl

theorem Evolves.extends {w w' : World} (h : Evolves w w') (hw : w'.Unreset) : Extends w w' := by
  induction h with
  | refl => exact .refl
  | tail _ hstep ih =>
    have hbefore := hw.of_ages hstep.ages
    exact (ih hbefore).tail (hstep.growth_of_unreset hw)

theorem intact_empty : Intact {} := fun _ _ _ hold => absurd hold.opened (Nat.not_lt_zero _)

theorem Intact.growth {w w' : World} (hgrowth : Growth w w') (hw : w.Intact) : w'.Intact := by
  intro b h node hold child hchild
  have hbefore : ∃ n, w.resolve b child = .ok n := by
    rcases (Step.growth hgrowth).holds_cases hold with hold | ⟨-, -, -, hall⟩
    · exact hw b h node hold child hchild
    · exact hall child hchild
  obtain ⟨n, hn⟩ := hbefore
  exact ⟨n, resolve_grow hgrowth.grows hn⟩

theorem Extends.intact {w w' : World} (h : Extends w w') (hw : w.Intact) : w'.Intact := by
  induction h with
  | refl => exact hw
  | tail _ hgrowth ih => exact ih.growth hgrowth

namespace Intact

variable {w : World} (hw : w.Intact) {a : ArenaId} {h : Handle} {node : Node}
include hw

/-- An arena that sees a node sees its children, since it reaches whatever the node's own arena
reaches. -/
theorem resolve_child (hr : w.resolve a h = .ok node) {child : Handle}
    (hchild : child ∈ node.children) : ∃ n, w.resolve a child = .ok n := by
  obtain ⟨b, hreach, hold⟩ := resolve_eq_ok_iff.mp hr
  obtain ⟨n, hn⟩ := hw b h node hold child hchild
  exact ⟨n, resolve_of_reach hreach hn⟩

theorem resolve_under (hr : w.resolve a h = .ok node) {descendant : Handle}
    (hunder : Relation.ReflTransGen w.Under descendant h) :
    ∃ n, w.resolve a descendant = .ok n := by
  induction hunder using Relation.ReflTransGen.head_induction_on with
  | refl => exact ⟨node, hr⟩
  | head hchild _ ih =>
    obtain ⟨n, hn⟩ := ih
    obtain ⟨b, parent, hparent, hmem⟩ := hchild
    obtain rfl := resolve_unique hparent hn
    exact hw.resolve_child hn hmem

/-- Going down from a handle ends, so the whole tree under it is seen. -/
theorem complete (hordered : w.Ordered) (hr : w.resolve a h = .ok node) : w.Complete a h := by
  induction h using hordered.wellFounded_under.induction generalizing node with
  | h h ih =>
    refine complete_of_children hr fun child hchild => ?_
    obtain ⟨n, hn⟩ := hw.resolve_child hr hchild
    exact ih child ⟨a, node, hr, hchild⟩ hn

end Intact

theorem Reachable.intact {w : World} (hw : w.Reachable) (hunreset : w.Unreset) : w.Intact :=
  ((Leads.evolves hw).extends hunreset).intact intact_empty

/-- A handle of an arena that was never reset names a node there. -/
theorem Issued.holds {w : World} (hunreset : w.Unreset) {a : ArenaId} {h : Handle}
    (hissued : w.Issued h) (harena : h.arena = .count a.number) : ∃ node, w.Holds a h node := by
  obtain ⟨b, generation, slot, copy, -, rfl, hle, hlt⟩ := hissued
  obtain rfl := ArenaId.number_injective (Coordinate.count.inj harena)
  have hgen : generation = (w.arena b).generation := by
    rw [hunreset b] at hle ⊢
    exact Nat.le_zero.mp hle
  have hslot := hlt hgen
  exact ⟨(w.arena b).nodes[slot], slot, copy, by rw [hgen], Array.getElem?_eq_getElem hslot⟩

/-- Linking shows an arena every tree that the source sees. -/
theorem Ordered.render_link {w : World} (hw : w.Ordered) {b : ArenaId} (hb : w.Opened b)
    (a : ArenaId) : ∃ w', perform (link b a) w = (.ok ⟨⟩, w') ∧
      ∀ h withDoctype html, w.render a h withDoctype = .ok html →
        w'.render b h withDoctype = .ok html := by
  obtain ⟨w', hrun, hgrows, hreach⟩ := perform_link_reaches hb a
  have hordered : w'.Ordered := by
    have hkept := (Addition.link b a).invariant
      (fun _ _ hgrowth hv => World.Ordered.step (.growth hgrowth) hv) w hw
    rw [hrun] at hkept
    exact hkept.1
  refine ⟨w', hrun, fun h withDoctype html hr => ?_⟩
  obtain ⟨content, ⟨tree, hstored, rfl, rfl⟩, rfl⟩ := denotes_of_render hr
  have hseen : tree.Stored w' b := (hstored.grow hgrows).reach hreach
  exact hordered.render_eq hseen withDoctype

/-- A tree reads the same from wherever it is read: from the arena that gave out its handle, as long
as no arena is reset; from any two arenas that see all of it; and from an arena that is linked to
one that does. -/
theorem render_across {w : World} (hw : w.Reachable) :
    (w.Unreset → ∀ a h, w.Issued h → h.arena = .count a.number →
      (∀ descendant, Relation.ReflTransGen w.Under descendant h →
        ∃ n, w.resolve a descendant = .ok n) ∧
      ∀ withDoctype, ∃ html, w.render a h withDoctype = .ok html) ∧
    (∀ a b h withDoctype html html', w.render a h withDoctype = .ok html →
      w.render b h withDoctype = .ok html' → html = html') ∧
    ∀ a b, w.Opened b → ∃ w', perform (link b a) w = (.ok ⟨⟩, w') ∧
      ∀ h withDoctype html, w.render a h withDoctype = .ok html →
        w'.render b h withDoctype = .ok html := by
  have hordered := hw.ordered
  refine ⟨?_, ?_, fun a b hb => hordered.render_link hb a⟩
  · intro hunreset a h hissued harena
    have hintact := hw.intact hunreset
    obtain ⟨node, hold⟩ := hissued.holds hunreset harena
    refine ⟨fun descendant hunder => hintact.resolve_under hold.resolve hunder, ?_⟩
    intro withDoctype
    obtain ⟨tree, hstored, rfl⟩ := hintact.complete hordered hold.resolve
    exact ⟨_, hordered.render_eq hstored withDoctype⟩
  · intro a b h withDoctype html html' hr hr'
    obtain ⟨content, hdenotes, rfl⟩ := denotes_of_render hr
    obtain ⟨content', hdenotes', rfl⟩ := denotes_of_render hr'
    rw [hdenotes.unique hdenotes']

end World

/-- Opens three arenas, puts a text into the first, and links each of the others to the one
before. -/
def chainText : Session Unit Handle := do
  let a ← monadLift (openArena {} none)
  let b ← monadLift (openArena {} none)
  let c ← monadLift (openArena {} none)
  let h ← monadLift (allocate a (.text "old"))
  monadLift (link b a)
  monadLift (link c b)
  return h

def chainedText : World where
  arenas := #[{ options := {}, listener := none, nodes := #[.text "old"] },
    { options := {}, listener := none, links := [⟨0⟩] },
    { options := {}, listener := none, links := [⟨1⟩] }]
  stored := 1

/-- The text is used at the other end of the chain, where it is seen through the arena between. -/
def usedAcross : World := chainedText.store ⟨2⟩ (.fragment [oldText.handle])

def acrossText : Tree :=
  .node (ArenaId.handle ⟨2⟩ 0 0) (.fragment [oldText.handle]) [oldText]

theorem reachable_chainedText : chainedText.Reachable := by
  refine ⟨Unit, Handle, chainText, (), (), .ok oldText.handle, ?_, rfl⟩
  refine .andThen (.call (.openArena _ _)) fun a => ?_
  refine .andThen (.call (.openArena _ _)) fun b => ?_
  refine .andThen (.call (.openArena _ _)) fun c => ?_
  refine .andThen (.call (.allocate _ _)) fun h => ?_
  refine .andThen (.call (.link _ _)) fun _ => ?_
  exact .andThen (.call (.link _ _)) fun _ => .done h

theorem resolve_chainedText : chainedText.resolve ⟨2⟩ oldText.handle = .ok (.text "old") := by
  have hreach : chainedText.InReach ⟨2⟩ ⟨0⟩ :=
    .head (b := ⟨1⟩) (List.mem_singleton.mpr rfl) (.single (List.mem_singleton.mpr rfl))
  exact World.resolve_eq_ok_iff.mpr ⟨⟨0⟩, hreach, 0, 0, rfl, rfl⟩

theorem perform_usedAcross : perform (allocate ⟨2⟩ (.fragment [oldText.handle])) chainedText =
    (.ok acrossText.handle, usedAcross) := by
  apply allocate_of_resolves rfl
  intro child hchild
  obtain rfl := List.mem_singleton.mp hchild
  exact ⟨_, resolve_chainedText⟩

theorem reachable_usedAcross : usedAcross.Reachable := by
  have hcall := reachable_chainedText.call (.allocate ⟨2⟩ (.fragment [oldText.handle]))
  rw [perform_usedAcross] at hcall
  exact hcall

theorem stored_acrossText : acrossText.Stored usedAcross ⟨2⟩ := by
  have hgrows := chainedText.grows_store ⟨2⟩ (.fragment [oldText.handle])
  have htext := World.resolve_grow hgrows resolve_chainedText
  refine .node (World.Holds.resolve ⟨0, 0, rfl, rfl⟩) rfl fun child hchild => ?_
  obtain rfl := List.mem_singleton.mp hchild
  exact .node htext rfl (by simp)

/-- The first arena is linked to the third, which closes a circle, and reads the tree there. -/
theorem render_across_of_circle : usedAcross.Reachable ∧ usedAcross.Unreset ∧
    usedAcross.Issued acrossText.handle ∧
    (∃ n, usedAcross.resolve ⟨2⟩ oldText.handle = .ok n) ∧
    usedAcross.render ⟨2⟩ acrossText.handle false = .ok "old" ∧
    ∃ w', perform (link ⟨0⟩ ⟨2⟩) usedAcross = (.ok ⟨⟩, w') ∧
      w'.render ⟨0⟩ acrossText.handle false = .ok "old" := by
  have hunreset : usedAcross.Unreset := by
    rintro ⟨index⟩
    match index with
    | 0 | 1 | 2 => rfl
    | _ + 3 => rfl
  have hold : usedAcross.Holds ⟨2⟩ acrossText.handle acrossText.root := ⟨0, 0, rfl, rfl⟩
  obtain ⟨hwhole, -, hlink⟩ := World.render_across reachable_usedAcross
  obtain ⟨hunder, -⟩ := hwhole hunreset ⟨2⟩ acrossText.handle hold.issued rfl
  have htext := hunder oldText.handle (.single ⟨⟨2⟩, _, hold.resolve, List.mem_singleton.mpr rfl⟩)
  have hrender := reachable_usedAcross.ordered.render_eq stored_acrossText false
  obtain ⟨w', hrun, hread⟩ := hlink ⟨2⟩ ⟨0⟩ (by decide)
  exact ⟨reachable_usedAcross, hunreset, hold.issued, htext, hrender, w', hrun,
    hread _ _ _ hrender⟩

end MarkupArena
