import Mathlib.Algebra.GroupWithZero.Nat
import MarkupArena.Proofs.Issued
import MarkupArena.Proofs.Making
import MarkupArena.Revision

/-! How many nodes work stores in an arena, and that the handles it makes were not there before. -/
namespace MarkupArena

/-- A world comes after another by nodes stored in one arena, as many as a number says. -/
inductive World.Gains (dest : ArenaId) : Nat → World → World → Prop where
  | none (w : World) : Gains dest 0 w w
  | store {n : Nat} {w u : World} (node : Node) : Gains dest n w u →
      (∀ child ∈ node.children, ∃ found, u.resolve dest child = .ok found) →
      Gains dest (n + 1) w (u.store dest node)

namespace World.Gains

variable {dest : ArenaId} {m n : Nat} {w u v : World}

theorem trans (hu : Gains dest n w u) (hv : Gains dest m u v) : Gains dest (n + m) w v := by
  induction hv with
  | none => exact hu
  | store node _ hall ih => exact .store node (ih hu) hall

theorem eq_of_zero (h : Gains dest 0 w u) : u = w := by
  cases h
  rfl

theorem grows (h : Gains dest n w u) : World.Grows w u := by
  induction h with
  | none => exact .refl _
  | store node _ _ ih => exact ih.trans (World.grows_store _ dest node)

theorem arena_of_ne (h : Gains dest n w u) {b : ArenaId} (hb : b ≠ dest) :
    u.arena b = w.arena b := by
  induction h with
  | none => rfl
  | store node _ _ ih => rw [World.arena_store, if_neg fun he => hb he.1.symm, ih]

theorem size (h : Gains dest n w u) (hdest : w.Opened dest) :
    (u.arena dest).size = (w.arena dest).size + n := by
  induction h with
  | none => rfl
  | store node hgains _ ih =>
    rw [World.arena_store, if_pos ⟨rfl, hgains.grows.opened dest hdest⟩]
    simp only [Arena.push, Arena.size, Array.size_push]
    have := ih hdest
    simp only [Arena.size] at this
    omega

theorem resolve_of_issued (h : Gains dest n w u) {a : ArenaId} {handle : Handle}
    (hissued : w.Issued handle) : u.resolve a handle = w.resolve a handle := by
  induction h with
  | none => rfl
  | store node hgains _ ih =>
    rw [World.resolve_store_of_issued (hissued.ages hgains.grows.ages), ih hissued]

/-- Work on each of a list, where a record of its own tells of every item what work made of it, and
how many nodes that took. -/
theorem mapM {α β ρ : Type} {f : α → Action β} {l : List α} {input : ρ → α} {output : ρ → β}
    {cost : ρ → Nat} {post : World → ρ → Prop}
    (hgrow : ∀ u v r, World.Grows u v → post u r → post v r)
    (hf : ∀ x ∈ l, ∀ n u v y, Gains dest n w u → perform (f x) u = (.ok y, v) →
      ∃ r, input r = x ∧ output r = y ∧ Gains dest (cost r) u v ∧ post v r)
    {ys : List β} (hu : Gains dest n w u) (hrun : perform (l.mapM f) u = (.ok ys, v)) :
    ∃ rs : List ρ, rs.map input = l ∧ rs.map output = ys ∧
      Gains dest (rs.map cost).sum u v ∧ ∀ r ∈ rs, post v r := by
  induction l generalizing n u ys with
  | nil =>
    obtain ⟨hys, rfl⟩ := Prod.mk.inj hrun
    obtain rfl := Except.ok.inj hys
    exact ⟨[], rfl, rfl, .none u, by simp⟩
  | cons x rest ih =>
    rw [List.mapM_cons] at hrun
    obtain ⟨y, u₁, hfirst, hrun⟩ := perform_bind_eq_ok_iff.mp hrun
    obtain ⟨others, u₂, hrest, hrun⟩ := perform_bind_eq_ok_iff.mp hrun
    obtain ⟨hys, rfl⟩ := Prod.mk.inj hrun
    obtain rfl := Except.ok.inj hys
    obtain ⟨r, hinput, houtput, hgains, hpost⟩ := hf x List.mem_cons_self n u u₁ y hu hfirst
    obtain ⟨rs, hinputs, houtputs, hgains', hposts⟩ :=
      ih (fun z hz => hf z (List.mem_cons_of_mem _ hz)) (hu.trans hgains) hrest
    refine ⟨r :: rs, by simp [hinput, hinputs], by simp [houtput, houtputs], ?_, ?_⟩
    · simpa using hgains.trans hgains'
    · exact List.forall_mem_cons.mpr ⟨hgrow _ _ r hgains'.grows hpost, hposts⟩

/-- Work on each of a list that fails does so at one of the items, with what was stored for those
before it. -/
theorem mapM_error {α β : Type} {f : α → Action β} {l : List α} {e : Failure}
    (hf : ∀ x ∈ l, ∀ n u v y, Gains dest n w u → perform (f x) u = (.ok y, v) →
      ∃ m, Gains dest m u v)
    (hu : Gains dest n w u) (hrun : perform (l.mapM f) u = (.error e, v)) :
    ∃ x ∈ l, ∃ n u, Gains dest n w u ∧ perform (f x) u = (.error e, v) := by
  induction l generalizing n u with
  | nil => cases hrun
  | cons x rest ih =>
    rw [List.mapM_cons] at hrun
    rcases perform_bind_eq_error_iff.mp hrun with hfirst | ⟨y, u₁, hfirst, hrun⟩
    · exact ⟨x, List.mem_cons_self, n, u, hu, hfirst⟩
    · rcases perform_bind_eq_error_iff.mp hrun with hrest | ⟨ys, u₂, -, hlast⟩
      · obtain ⟨m, hgains⟩ := hf x List.mem_cons_self n u u₁ y hu hfirst
        obtain ⟨z, hz, hfails⟩ :=
          ih (fun z hz => hf z (List.mem_cons_of_mem _ hz)) (hu.trans hgains) hrest
        exact ⟨z, List.mem_cons_of_mem _ hz, hfails⟩
      · cases hlast

end World.Gains

/-- Work that stores so many nodes, the last of them under the handle that it results in. -/
def Makes (dest : ArenaId) (n : Nat) (made : Node → Prop) (work : Action Handle) : Prop :=
  ∀ u v h, u.Opened dest → perform work u = (.ok h, v) →
    World.Gains dest n u v ∧ ¬ u.Issued h ∧ ∃ node, made node ∧ v.Holds dest h node

theorem Makes.weaken {dest : ArenaId} {n : Nat} {made made' : Node → Prop} {work : Action Handle}
    (h : Makes dest n made work) (hmade : ∀ node, made node → made' node) :
    Makes dest n made' work := by
  intro u v handle hdest hrun
  obtain ⟨hgains, hnew, node, hnode, hold⟩ := h u v handle hdest hrun
  exact ⟨hgains, hnew, node, hmade node hnode, hold⟩

def Part.nodeCount : Part → Nat
  | .text _ => 1
  | .node _ => 0

def Part.nodeCounts (parts : List Part) : Nat := (parts.map Part.nodeCount).sum

/-- The number of nodes that are stored for a description. -/
def Description.nodeCount : Description → Nat
  | .element _ _ children => Part.nodeCounts children.parts + 1
  | .text _ => 1
  | .fragment children => Part.nodeCounts children.parts + 1
  | .rendered _ => 1

def Replacement.nodeCount : Replacement → Nat
  | .stored _ => 0
  | .described description => description.nodeCount

section
variable {dest : ArenaId}

theorem makes_allocate (node : Node) : Makes dest 1 (· = node) (allocate dest node) := by
  intro u v h hdest hrun
  obtain ⟨rfl, rfl, hall⟩ := allocate_ok hrun
  exact ⟨.store node (.none u) hall, World.not_issued_lastHandle hdest node, node, rfl,
    World.holds_lastHandle hdest node⟩

theorem gains_storeAll {u v : World} {parts : List Part} {handles : List Handle}
    (hrun : perform (parts.mapM (Build.store dest)) u = (.ok handles, v)) :
    World.Gains dest (Part.nodeCounts parts) u v := by
  have hstore : ∀ part ∈ parts, ∀ n u' v' h, World.Gains dest n u u' →
      perform (Build.store dest part) u' = (.ok h, v') →
      ∃ r : Part × Handle, r.1 = part ∧ r.2 = h ∧
        World.Gains dest r.1.nodeCount u' v' ∧ True := by
    intro part _ n u' v' h _ hpart
    refine ⟨(part, h), rfl, rfl, ?_, True.intro⟩
    cases part with
    | text value =>
      obtain ⟨-, rfl, hall⟩ := allocate_ok hpart
      exact .store _ (.none u') hall
    | node handle =>
      obtain ⟨-, rfl⟩ := Prod.mk.inj hpart
      exact .none u'
  obtain ⟨rs, hparts, -, hgains, -⟩ :=
    World.Gains.mapM (fun _ _ _ _ => id) hstore (.none u) hrun
  rw [Part.nodeCounts, ← hparts, List.map_map]
  exact hgains

/-- Text parts are stored first, each as a node, and then what stands above them. -/
theorem makes_above (parts : List Part) (above : List Handle → Node) :
    Makes dest (Part.nodeCounts parts + 1) (fun _ => True) (do
      let handles ← parts.mapM (Build.store dest)
      allocate dest (above handles)) := by
  intro u v h hdest hrun
  obtain ⟨handles, u', hparts, hrun⟩ := perform_bind_eq_ok_iff.mp hrun
  have hgains := gains_storeAll hparts
  obtain ⟨hmore, hnew, node, -, hold⟩ :=
    makes_allocate _ u' v h (hgains.grows.opened dest hdest) hrun
  refine ⟨hgains.trans hmore, fun hissued => ?_, node, True.intro, hold⟩
  exact hnew (hissued.ages hgains.grows.ages)

theorem makes_realize (description : Description) :
    Makes dest description.nodeCount (fun _ => True) (Build.realize dest description) := by
  have hallocate : ∀ node, Makes dest 1 (fun _ => True) (allocate dest node) :=
    fun node => (makes_allocate node).weaken fun _ _ => True.intro
  cases description with
  | element tag input children =>
    intro u v h hdest hrun
    rw [Build.realize, Build.perform_elementAt, Child.listParts_singleton] at hrun
    rcases haccept : u.accept dest tag input children.parts with f | ⟨info, given⟩
    · rw [haccept] at hrun
      cases hrun
    · rw [haccept] at hrun
      exact makes_above children.parts (fun handles => .element ⟨info, given, handles⟩) u v h hdest
        hrun
  | text value => exact hallocate (.text value)
  | fragment children =>
    rw [Build.realize, Build.fragment, Child.listParts_singleton]
    exact makes_above children.parts .fragment
  | rendered markup => exact hallocate (.rendered markup)

theorem makes_withChildren (e : Element) (children : List Handle) :
    Makes dest 1 (· = .element { e with children }) (Build.withChildren dest e children) := by
  intro u v h hdest hrun
  rw [Build.perform_withChildren] at hrun
  split at hrun
  · exact makes_allocate _ u v h hdest hrun
  · cases hrun

end

/-- The node with other children; of what is no element, a fragment is left. -/
def Node.withChildren (children : List Handle) : Node → Node
  | .element e => .element { e with children }
  | _ => .fragment children

theorem Revision.makes_rebuild {dest : ArenaId} (node : Node) (children : List Handle) :
    Makes dest 1 (· = node.withChildren children) (rebuild dest node children) := by
  cases node with
  | element e => exact makes_withChildren e children
  | text value => exact makes_allocate _
  | fragment old => exact makes_allocate _
  | rendered markup => exact makes_allocate _

end MarkupArena
