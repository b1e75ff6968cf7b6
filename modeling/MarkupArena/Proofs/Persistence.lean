import MarkupArena.Proofs.Views

/-! Trees are never disturbed: as long as no arena is reset, whatever clients do, and wherever it
fails, only adds nodes and links, so every reader of a tree goes on to see what it saw. -/
namespace MarkupArena

theorem Arena.Grows.isPrefix {x y : Arena} (h : Arena.Grows x y) :
    x.nodes.toList <+: y.nodes.toList := by
  refine List.prefix_iff_getElem?.mpr fun slot hslot => ?_
  rw [Array.getElem?_toList]
  apply h.node
  rw [← Array.getElem?_toList, List.getElem?_eq_getElem hslot]

namespace World

theorem Grows.isPrefix {w w' : World} (h : Grows w w') (b : ArenaId) :
    (w.arena b).nodes.toList <+: (w'.arena b).nodes.toList := by
  by_cases hb : w.Opened b
  · exact (h.arena b hb).isPrefix
  · rw [arena_of_not_opened hb]
    exact List.nil_prefix

/-- What can be rendered is rendered as before after any work without a reset, has the same outline
and is walked in the same order; and the nodes of every arena are still there, in their slots. -/
theorem undisturbed {w w' : World} (hw : w.Reachable) (hadds : w.Adds w') :
    (∀ a h withDoctype html, w.render a h withDoctype = .ok html →
      w'.render a h withDoctype = .ok html ∧ w'.outline a h = w.outline a h ∧
        w'.walk a h = w.walk a h) ∧
    ∀ b, (w.arena b).nodes.toList <+: (w'.arena b).nodes.toList := by
  have hextends := hadds.extends
  refine ⟨?_, hextends.grows.isPrefix⟩
  intro a h withDoctype html hr
  obtain ⟨content, ⟨tree, hstored, rfl, rfl⟩, rfl⟩ := denotes_of_render hr
  have hordered := hw.ordered
  have hordered' : w'.Ordered := hextends.evolves.ordered hordered
  have hstored' : tree.Stored w' a := hstored.grow hextends.grows
  refine ⟨hordered'.render_eq hstored' withDoctype, ?_, ?_⟩
  · rw [hordered.outline_eq hstored, hordered'.outline_eq hstored']
  · rw [hordered.walk_eq hstored, hordered'.walk_eq hstored']

end World

/-- A handle that no arena gave out. -/
def madeUp : Handle := { arena := .stray .nan, generation := .count 0, slot := .count 0 }

/-- A fragment that is given up after its text was stored. -/
def abandonFragment : Session Unit Handle :=
  monadLift (Build.fragment ⟨0⟩ [.text "stray", .node madeUp])

theorem resolve_madeUp (w : World) (a : ArenaId) :
    w.resolve a madeUp = .error (.invalidHandle .foreignArena madeUp a) := by
  have howner : w.owner? a madeUp.arena = none := by
    cases hfound : w.owner? a madeUp.arena with
    | none => rfl
    | some b =>
      obtain ⟨hnumber, -⟩ := World.owner?_eq_some_iff.mp hfound
      cases hnumber
  rw [World.resolve, howner]

theorem perform_abandonFragment : perform abandonFragment (linkedText, ()) =
    (.error (.invalidHandle .foreignArena madeUp ⟨0⟩), linkedText.store ⟨0⟩ (.text "stray"),
      ()) := by
  have hstray : (linkedText.store ⟨0⟩ (.text "stray")).resolve ⟨0⟩ (ArenaId.handle ⟨0⟩ 0 1) =
      .ok (.text "stray") := World.Holds.resolve ⟨1, 0, rfl, rfl⟩
  have hparts : perform ([Part.text "stray", .node madeUp].mapM (Build.store ⟨0⟩)) linkedText =
      (.ok [ArenaId.handle ⟨0⟩ 0 1, madeUp], linkedText.store ⟨0⟩ (.text "stray")) := rfl
  unfold abandonFragment Build.fragment
  simp only [perform_lift, Child.listParts, Child.parts, List.singleton_append, perform_bind,
    hparts, perform_allocate, Node.children, List.forM_eq_forM, List.forM_cons, hstray,
    resolve_madeUp]
  rfl

theorem undisturbed_of_abandonFragment : ∃ w', linkedText.Reachable ∧ linkedText.Adds w' ∧
    (w'.arena ⟨0⟩).nodes[1]? = some (.text "stray") ∧
    linkedText.render ⟨1⟩ oldText.handle false = .ok oldText.content.markup ∧
    w'.render ⟨1⟩ oldText.handle false = .ok oldText.content.markup := by
  have hadds : linkedText.Adds (linkedText.store ⟨0⟩ (.text "stray")) :=
    ⟨Unit, Handle, abandonFragment, (), (), _, .call (.fragment _ _), perform_abandonFragment⟩
  have hstored : oldText.Stored linkedText ⟨0⟩ :=
    .node (World.Holds.resolve ⟨0, 0, rfl, rfl⟩) rfl (by simp)
  have hrender := reachable_linkedText.ordered.render_eq (hstored.reach reach_linkedText) false
  have hsame := (World.undisturbed reachable_linkedText hadds).1 _ _ _ _ hrender
  exact ⟨_, reachable_linkedText, hadds, rfl, hrender, hsame.1⟩

end MarkupArena
