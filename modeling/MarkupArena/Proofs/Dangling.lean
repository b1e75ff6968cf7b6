import MarkupArena.Proofs.Persistence
import MarkupArena.Proofs.Sharing

/-! Whether a revision ends with a handle that resolves. Of what a visitor supplies, all that comes
to stand in a parent or in a fragment is looked up when those are stored; a single stored node in
the place of the root is passed on as it is. -/
namespace MarkupArena

namespace Revision

section
variable {dest : ArenaId}

/-- What replaces a node resolves, unless it was supplied as a handle. -/
theorem resolves_of_materialize {u v : World} {replacement : Replacement} {h : Handle}
    (hdest : u.Opened dest) (hrun : perform (materialize dest replacement) u = (.ok h, v)) :
    replacement = .stored h ∨ ∃ node, v.resolve dest h = .ok node := by
  cases replacement with
  | stored handle =>
    obtain rfl := Except.ok.inj (Prod.mk.inj hrun).1
    exact .inl rfl
  | described description =>
    obtain ⟨-, -, node, -, hold⟩ := makes_realize description u v h hdest hrun
    exact .inr ⟨node, hold.resolve⟩

/-- A node whose children are revised keeps its handle, or is stored under one that resolves. -/
theorem resolves_of_settle {u v : World} {node : Node} {h kept : Handle}
    {results : List (List Handle)} (hdest : u.Opened dest)
    (hrun : perform (settle dest node h results) u = (.ok kept, v)) :
    kept = h ∨ ∃ found, v.resolve dest kept = .ok found := by
  unfold settle at hrun
  split at hrun
  · exact .inl (Except.ok.inj (Prod.mk.inj hrun).1).symm
  · obtain ⟨-, -, made, -, hold⟩ := makes_rebuild node _ u v kept hdest hrun
    exact .inr ⟨made, hold.resolve⟩

end

section
variable {σ : Type} {source dest : ArenaId} {visitor : Visitor (Session σ)}

/-- Asked about a node in a state, the visitor puts these in its place. -/
def Gives (visitor : Visitor (Session σ)) (s : World × σ) (node : Node) (h : Handle) (depth : Nat)
    (nodes : List Replacement) : Prop :=
  ∃ change t, perform (visitor node h depth) s = (.ok change, t) ∧
    change.replacements? h = some nodes

/-- Work on a list has a single result only if there is a single item. -/
theorem singleton_of_mapM {S α β : Type} {f : α → Work S β} {items : List α} {y : β} {s t : S}
    (hrun : perform (items.mapM f) s = (.ok [y], t)) :
    ∃ x, items = [x] ∧ perform (f x) s = (.ok y, t) := by
  rcases items with _ | ⟨x, rest⟩
  · cases hrun
  · rw [List.mapM_cons] at hrun
    obtain ⟨z, s₁, hfirst, hrun⟩ := perform_bind_eq_ok_iff.mp hrun
    obtain ⟨others, s₂, hrest, hrun⟩ := perform_bind_eq_ok_iff.mp hrun
    obtain ⟨hlist, rfl⟩ := Prod.mk.inj hrun
    obtain ⟨rfl, rfl⟩ := List.cons.inj (Except.ok.inj hlist)
    rcases rest with _ | ⟨x', rest⟩
    · obtain ⟨-, rfl⟩ := Prod.mk.inj hrest
      exact ⟨x, rfl, hfirst⟩
    · rw [List.mapM_cons] at hrest
      obtain ⟨_, _, -, hrest⟩ := perform_bind_eq_ok_iff.mp hrest
      obtain ⟨_, _, -, hrest⟩ := perform_bind_eq_ok_iff.mp hrest
      cases hrest

variable {inv : World → Prop} (Own : σ → Prop) (hs : ∀ a, StandsAt inv (fun _ => True) a)
  (hopened : ∀ w, inv w → w.Opened dest)
  (hvisitor : ∀ node h depth,
    Invariant (fun s : World × σ => inv s.1 ∧ Own s.2) (visitor node h depth))
include hs hopened hvisitor

/-- A node that stays, with what becomes of its children, keeps its handle or gets one that
resolves. -/
theorem resolves_of_descend {bound depth : Nat} {node : Node} {h only : Handle} {s t : World × σ}
    (hinv : inv s.1 ∧ Own s.2)
    (hrun : perform (do
        let results ← node.children.mapM (visit source dest visitor bound depth)
        return [← monadLift (settle dest node h results)] : Session σ (List Handle)) s =
      (.ok [only], t)) :
    only = h ∨ ∃ found, t.1.resolve dest only = .ok found := by
  obtain ⟨results, u, hresults, hrun⟩ := perform_bind_eq_ok_iff.mp hrun
  obtain ⟨kept, v, hsettle, hrun⟩ := perform_bind_eq_ok_iff.mp hrun
  obtain ⟨hkept, rfl⟩ := Prod.mk.inj hrun
  obtain rfl := List.singleton_inj.mp (Except.ok.inj hkept)
  have hchildren : Invariant (fun s : World × σ => inv s.1 ∧ Own s.2)
      (node.children.mapM (visit source dest visitor bound depth)) :=
    Invariant.mapM fun child _ =>
      invariant_visit (fun a => (hs a).revision) (fun node h depth _ => hvisitor node h depth) bound
        depth child
  have hu := (hchildren.of_perform hinv hresults).1
  rw [perform_lift] at hsettle
  obtain ⟨hok, rfl⟩ := Prod.mk.inj hsettle
  exact resolves_of_settle (hopened _ hu) (Prod.ext hok rfl)

/-- A visit with a single result: it resolves, or it is the visited node itself, or the visitor
supplied its handle. -/
theorem resolves_of_visit {bound depth : Nat} {h only : Handle} {s t : World × σ}
    (hinv : inv s.1 ∧ Own s.2)
    (hrun : perform (visit source dest visitor bound depth h) s = (.ok [only], t)) :
    ∃ node, s.1.resolve source h = .ok node ∧
      (only = h ∨ (∃ found, t.1.resolve dest only = .ok found) ∨
        Gives visitor s node h depth [.stored only]) := by
  cases bound with
  | zero => cases hrun
  | succ bound =>
    unfold visit at hrun
    obtain ⟨node, u, hlook, hrun⟩ := perform_bind_eq_ok_iff.mp hrun
    rw [perform_lift, resolve, perform_observe] at hlook
    obtain ⟨hnode, rfl⟩ := Prod.mk.inj hlook
    obtain ⟨change, u, hchange, hrun⟩ := perform_bind_eq_ok_iff.mp hrun
    have hu := (hvisitor node h depth).of_perform hinv hchange
    have hgives : ∀ nodes, change.replacements? h = some nodes →
        Gives visitor s node h depth nodes := fun nodes hr => ⟨change, u, hchange, hr⟩
    have hmade : ∀ replacement,
        perform (monadLift (materialize dest replacement) : Session σ Handle) u = (.ok only, t) →
        replacement = .stored only ∨ ∃ found, t.1.resolve dest only = .ok found := by
      intro replacement hone
      rw [perform_lift] at hone
      obtain ⟨hok, rfl⟩ := Prod.mk.inj hone
      exact resolves_of_materialize (hopened _ hu.1) (Prod.ext hok rfl)
    refine ⟨node, hnode, ?_⟩
    cases change with
    | keep => exact (resolves_of_descend Own hs hopened hvisitor hu hrun).imp id .inl
    | remove => cases hrun
    | replace replacement =>
      cases replacement with
      | stored handle =>
        dsimp only at hrun
        split at hrun
        next => exact (resolves_of_descend Own hs hopened hvisitor hu hrun).imp id .inl
        next hother =>
          obtain ⟨hhandle, -⟩ := Prod.mk.inj hrun
          obtain rfl := List.singleton_inj.mp (Except.ok.inj hhandle)
          exact .inr (.inr (hgives _ (if_neg hother)))
      | described description =>
        obtain ⟨made, v, hone, hlast⟩ := perform_bind_eq_ok_iff.mp hrun
        obtain ⟨hhandle, rfl⟩ := Prod.mk.inj hlast
        obtain rfl := List.singleton_inj.mp (Except.ok.inj hhandle)
        exact .inr (.inl ((hmade _ hone).resolve_left fun he => by cases he))
    | splice nodes =>
      obtain ⟨replacement, rfl, hone⟩ := singleton_of_mapM hrun
      rcases hmade _ hone with rfl | hfound
      · exact .inr (.inr (hgives _ rfl))
      · exact .inr (.inl hfound)

/-- A revision that succeeds: its handle resolves, or it is the root, or the visitor supplied it for
the root. -/
theorem resolves_or_passed_on {root h : Handle} {s t : World × σ}
    (hinv : inv (perform (link dest source) s.1).2 ∧ Own s.2)
    (hrun : perform (revise source dest root visitor) s = (.ok h, t)) :
    inv t.1 ∧ ((∃ found, t.1.resolve dest h = .ok found) ∨
      ∃ node, (perform (link dest source) s.1).2.resolve source root = .ok node ∧
        (h = root ∨
          Gives visitor ((perform (link dest source) s.1).2, s.2) node root 0 [.stored h])) := by
  unfold revise at hrun
  obtain ⟨⟨⟩, u, hlink, hrun⟩ := perform_bind_eq_ok_iff.mp hrun
  rw [perform_lift] at hlink
  obtain ⟨-, rfl⟩ := Prod.mk.inj hlink
  obtain ⟨bound, u, hbound, hrun⟩ := perform_bind_eq_ok_iff.mp hrun
  rw [perform_lift, perform_observe] at hbound
  obtain ⟨-, rfl⟩ := Prod.mk.inj hbound
  obtain ⟨results, u, hvisit, hrun⟩ := perform_bind_eq_ok_iff.mp hrun
  have hkeeps : Invariant (fun s : World × σ => inv s.1 ∧ Own s.2)
      (visit source dest visitor bound 0 root) :=
    invariant_visit (fun a => (hs a).revision) (fun node h depth _ => hvisitor node h depth) bound 0
      root
  have hu := hkeeps.of_perform hinv hvisit
  have hcollect : perform (monadLift (allocate dest (.fragment results)) : Session σ Handle) u =
      (.ok h, t) → inv t.1 ∧ ∃ found, t.1.resolve dest h = .ok found := by
    intro hstore
    have ht := (((hs dest).fragment results).lift.of_perform hu hstore).1
    rw [perform_lift] at hstore
    obtain ⟨hok, rfl⟩ := Prod.mk.inj hstore
    obtain ⟨-, -, node, -, hold⟩ := makes_allocate _ _ _ h (hopened _ hu.1) (Prod.ext hok rfl)
    exact ⟨ht, node, hold.resolve⟩
  rcases results with _ | ⟨only, _ | ⟨second, rest⟩⟩
  · exact (hcollect hrun).imp id .inl
  · obtain ⟨hh, rfl⟩ := Prod.mk.inj hrun
    obtain rfl := Except.ok.inj hh
    obtain ⟨node, hnode, hcases⟩ := resolves_of_visit Own hs hopened hvisitor hinv hvisit
    refine ⟨hu.1, ?_⟩
    rcases hcases with hroot | hfound | hgives
    · exact .inr ⟨node, hnode, .inl hroot⟩
    · exact .inl hfound
    · exact .inr ⟨node, hnode, .inr hgives⟩
  · exact (hcollect hrun).imp id .inl

end

/-- A revision that succeeds ends with a handle that resolves from the destination, unless the
visitor answered for the root with one stored node, whose handle is not looked up. A visitor that
resets arenas may besides lose the root while it stays. -/
theorem resolves_of_revise {σ : Type} {source dest : ArenaId} {root h : Handle}
    {visitor : Visitor (Session σ)} {w w' : World} {own own' : σ} (hdest : w.Opened dest)
    (hvisitor : ∀ node h depth,
      Client Operation (fun _ => True) (fun _ => True) (visitor node h depth))
    (hrun : perform (revise source dest root visitor) (w, own) = (.ok h, w', own')) :
    (∃ found, w'.resolve dest h = .ok found) ∨
    (∃ node, w.resolve source root = .ok node ∧
      Gives visitor ((perform (link dest source) w).2, own) node root 0 [.stored h]) ∨
    h = root ∧ ¬ ∀ node h depth,
      Client Addition (fun _ => True) (fun _ => True) (visitor node h depth) := by
  obtain ⟨w₁, hlink, hgrow, hreach⟩ := perform_link_reaches hdest source
  have hlinked : (perform (link dest source) w).2 = w₁ := congrArg Prod.snd hlink
  by_cases hadds : ∀ node h depth,
      Client Addition (fun _ => True) (fun _ => True) (visitor node h depth)
  · have hstep : ∀ u v, World.Growth u v → w₁.Extends u → w₁.Extends v :=
      fun u v hstep hu => hu.tail hstep
    have hs : ∀ a, StandsAt w₁.Extends (fun _ => True) a :=
      (stands_of_growth (fun _ _ _ _ _ _ => True.intro) hstep).at
    obtain ⟨hextends, hcases⟩ := resolves_or_passed_on (fun _ => True) hs
      (fun u hu => hu.grows.opened dest (hgrow.opened dest hdest))
      (fun node h depth => (hadds node h depth).invariant (fun a => (hs a).revision) fun hop =>
        hop.invariant hstep)
      (by rw [hlinked]; exact ⟨.refl, True.intro⟩) hrun
    rcases hcases with hfound | ⟨node, hnode, rfl | hgives⟩
    · exact .inl hfound
    · rw [hlinked] at hnode
      have hseen := World.resolve_of_reach hreach hnode
      exact .inl ⟨node, World.resolve_grow hextends.grows hseen⟩
    · exact .inr (.inl ⟨node, World.resolve_of_perform_link hnode, hgives⟩)
  · have hstep : ∀ u v, World.Step u v → w₁.Evolves u → w₁.Evolves v :=
      fun u v hstep hu => hu.tail hstep
    have hs : ∀ a, StandsAt w₁.Evolves (fun _ => True) a :=
      (stands_of_growth (fun _ _ _ _ _ _ => True.intro) fun u v h => hstep u v (.growth h)).at
    obtain ⟨-, hcases⟩ := resolves_or_passed_on (fun _ => True) hs
      (fun u hu => hu.ages.opened dest (hgrow.opened dest hdest))
      (fun node h depth => (hvisitor node h depth).invariant (fun a => (hs a).revision) fun hop =>
        hop.invariant hstep)
      (by rw [hlinked]; exact ⟨.refl, True.intro⟩) hrun
    rcases hcases with hfound | ⟨node, hnode, rfl | hgives⟩
    · exact .inl hfound
    · exact .inr (.inr ⟨rfl, hadds⟩)
    · exact .inr (.inl ⟨node, World.resolve_of_perform_link hnode, hgives⟩)

end Revision

/-- The paragraph is stored again without its text, and its new handle resolves. -/
theorem resolves_of_textDropper : (besideParagraph prose).Opened ⟨1⟩ ∧
    (∀ node h depth,
      Client Operation (fun _ => True) (fun _ => True) (textDropper node h depth)) ∧
    perform (Revision.revise ⟨0⟩ ⟨1⟩ (ArenaId.handle ⟨0⟩ 0 1) textDropper)
      (besideParagraph prose, ()) = (.ok (ArenaId.handle ⟨1⟩ 0 0), afterDrop prose, ()) ∧
    ∃ found, (afterDrop prose).resolve ⟨1⟩ (ArenaId.handle ⟨1⟩ 0 0) = .ok found := by
  have hopened : (besideParagraph prose).Opened ⟨1⟩ := Nat.lt_succ_self 1
  have hvisitor : ∀ node h depth,
      Client Operation (fun _ => True) (fun _ => True) (textDropper node h depth) :=
    fun _ _ _ => .andThen (.done _) fun _ => .done _
  have hrun := perform_dropTexts prose
  refine ⟨hopened, hvisitor, hrun, ?_⟩
  rcases Revision.resolves_of_revise hopened hvisitor hrun with hfound | hgives | ⟨hroot, -⟩
  · exact hfound
  · obtain ⟨node, -, change, t, hchange, hreplaces⟩ := hgives
    obtain ⟨hchange, -⟩ := Prod.mk.inj hchange
    obtain rfl := Except.ok.inj hchange
    cases node <;> cases hreplaces
  · cases hroot

/-- A text in each of two arenas, neither of which is linked to the other. -/
def textsApart : World := (twoArenas.store ⟨0⟩ (.text "old")).store ⟨1⟩ (.text "new")

def foreignText : Handle := ArenaId.handle ⟨1⟩ 0 0

/-- Answers for every node with the text of the second arena. -/
def giveForeign : Revision.Visitor (Session Unit) := fun _ _ _ =>
  pure (.replace (.stored foreignText))

theorem resolve_foreignText : textsApart.resolve ⟨0⟩ foreignText =
    .error (.invalidHandle .foreignArena foreignText ⟨0⟩) := by
  refine World.resolve_of_not_inReach fun hreach => ?_
  rcases hreach.cases_head with hsame | ⟨c, hlink, -⟩
  · cases hsame
  · cases hlink

/-- The first arena's revision ends with a handle that the first arena cannot resolve. -/
theorem dangling_of_giveForeign : textsApart.Reachable ∧ textsApart.Opened ⟨0⟩ ∧
    perform (Revision.revise ⟨0⟩ ⟨0⟩ oldText.handle giveForeign) (textsApart, ()) =
      (.ok foreignText, textsApart, ()) ∧
    ∀ found, textsApart.resolve ⟨0⟩ foreignText ≠ .ok found := by
  have htwo : twoArenas.Reachable :=
    (World.reachable_empty.call (.openArena {} none)).call (.openArena {} none)
  have hreachable : textsApart.Reachable :=
    (htwo.store _ _ rfl (List.forall_mem_nil _)).store _ _ rfl (List.forall_mem_nil _)
  have hold : textsApart.resolve ⟨0⟩ oldText.handle = .ok (.text "old") :=
    World.Holds.resolve ⟨0, 0, rfl, rfl⟩
  have hvisit : perform (Revision.visit ⟨0⟩ ⟨0⟩ giveForeign 3 0 oldText.handle) (textsApart, ()) =
      (.ok [foreignText], textsApart, ()) := by
    unfold Revision.visit
    rw [perform_bind, perform_lift, resolve, perform_observe, hold]
    rfl
  have hlink : perform (link ⟨0⟩ ⟨0⟩) textsApart = (.ok ⟨⟩, textsApart) := rfl
  refine ⟨hreachable, Nat.zero_lt_succ 1, ?_, fun found hfound => ?_⟩
  · unfold Revision.revise
    rw [perform_bind, perform_lift, hlink]
    dsimp only
    rw [perform_bind, perform_lift, perform_observe]
    dsimp only
    rw [perform_bind, show World.depthBound _ = 3 from rfl, hvisit]
    rfl
  · rw [resolve_foreignText] at hfound
    cases hfound

end MarkupArena
