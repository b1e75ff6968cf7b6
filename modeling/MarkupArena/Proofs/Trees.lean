import Mathlib.Data.List.Forall2
import MarkupArena.Proofs.Steps

/-! The trees that handles stand for. Subtrees may be shared in an arena; a tree has one copy for
each place where they occur. -/
namespace MarkupArena

/-- A node with all that is under it, and the handles under which it is stored. -/
inductive Tree where
  | node (handle : Handle) (stored : Node) (children : List Tree)

/-- What a tree says, without regard to where it is stored. -/
inductive Content where
  | element (info : TagInfo) (attributes : List Attribute) (children : List Content)
  | text (value : String)
  | fragment (children : List Content)
  | rendered (markup : Rendered)

/-- The content of a node with that of its children in their place. -/
def Node.contentWith (node : Node) (children : List Content) : Content :=
  match node with
  | .element e => .element e.info e.attributes children
  | .text value => .text value
  | .fragment _ => .fragment children
  | .rendered markup => .rendered markup

namespace Tree

def handle : Tree → Handle
  | node handle _ _ => handle

/-- The node at the top. -/
def root : Tree → Node
  | node _ stored _ => stored

mutual

def content : Tree → Content
  | node _ stored children => stored.contentWith (contents children)

def contents : List Tree → List Content
  | [] => []
  | tree :: rest => tree.content :: contents rest

end

theorem contents_eq_map (trees : List Tree) : contents trees = trees.map content := by
  induction trees with
  | nil => rfl
  | cons tree rest ih => rw [contents, List.map_cons, ih]

/-- All of a tree is stored where an arena can see it. -/
inductive Stored (w : World) (a : ArenaId) : Tree → Prop where
  | node {handle : Handle} {stored : Node} {children : List Tree} :
      w.resolve a handle = .ok stored → children.map Tree.handle = stored.children →
      (∀ child ∈ children, Stored w a child) → Stored w a (.node handle stored children)

theorem Stored.resolve {w : World} {a : ArenaId} {tree : Tree} (hstored : tree.Stored w a) :
    w.resolve a tree.handle = .ok tree.root := by
  cases hstored with
  | node hresolve _ _ => exact hresolve

theorem Stored.grow {w w' : World} (hgrow : World.Grows w w') {a : ArenaId} {tree : Tree}
    (hstored : tree.Stored w a) : tree.Stored w' a := by
  induction hstored with
  | node hresolve hhandles _ ih => exact .node (World.resolve_grow hgrow hresolve) hhandles ih

theorem Stored.reach {w : World} {a b : ArenaId} (hreach : w.InReach b a) {tree : Tree}
    (hstored : tree.Stored w a) : tree.Stored w b := by
  induction hstored with
  | node hresolve hhandles _ ih => exact .node (World.resolve_of_reach hreach hresolve) hhandles ih

theorem eq_of_handles {P : Tree → Prop} {trees others : List Tree}
    (h : ∀ tree ∈ trees, ∀ {other : Tree}, P other → tree.handle = other.handle → tree = other)
    (hothers : ∀ other ∈ others, P other)
    (hhandles : trees.map Tree.handle = others.map Tree.handle) : trees = others := by
  induction trees generalizing others with
  | nil => exact (List.map_eq_nil_iff.mp hhandles.symm).symm
  | cons tree rest ih =>
    cases others with
    | nil => cases hhandles
    | cons other others =>
      obtain ⟨hhead, htail⟩ := List.cons.inj hhandles
      obtain ⟨hother, hothers⟩ := List.forall_mem_cons.mp hothers
      rw [h tree List.mem_cons_self hother hhead,
        ih (fun t ht => h t (List.mem_cons_of_mem _ ht)) hothers htail]

/-- The children of a tree are told by their handles, so there is one tree for a handle, from
wherever it is seen. -/
theorem Stored.unique {w : World} {a b : ArenaId} {tree other : Tree} (ht : tree.Stored w a)
    (ho : other.Stored w b) (hhandle : tree.handle = other.handle) : tree = other := by
  induction ht generalizing other with
  | @node handle stored children hresolve hhandles _ ih =>
    cases ho with
    | @node handle' stored' children' hresolve' hhandles' hchildren' =>
      obtain rfl : handle = handle' := hhandle
      obtain rfl : stored = stored' := World.resolve_unique hresolve hresolve'
      have hsame : children.map Tree.handle = children'.map Tree.handle :=
        hhandles.trans hhandles'.symm
      rw [eq_of_handles ih hchildren' hsame]

end Tree

theorem exists_of_forall_mem {α β : Type} {P : β → Prop} {f : β → α} {xs : List α}
    (h : ∀ x ∈ xs, ∃ y, P y ∧ f y = x) :
    ∃ ys : List β, (∀ y ∈ ys, P y) ∧ ys.map f = xs := by
  induction xs with
  | nil => exact ⟨[], List.forall_mem_nil _, rfl⟩
  | cons x rest ih =>
    obtain ⟨⟨y, hy, rfl⟩, hrest⟩ := List.forall_mem_cons.mp h
    obtain ⟨ys, hys, rfl⟩ := ih hrest
    exact ⟨y :: ys, List.forall_mem_cons.mpr ⟨hy, hys⟩, rfl⟩

namespace World

/-- A handle resolves with all that is under it. -/
def Complete (w : World) (a : ArenaId) (h : Handle) : Prop :=
  ∃ tree : Tree, tree.Stored w a ∧ tree.handle = h

/-- A handle resolves with all that is under it, to a tree with some content. -/
def Denotes (w : World) (a : ArenaId) (h : Handle) (content : Content) : Prop :=
  ∃ tree : Tree, tree.Stored w a ∧ tree.handle = h ∧ tree.content = content

theorem Denotes.unique {w : World} {a b : ArenaId} {h : Handle} {content other : Content}
    (hc : w.Denotes a h content) (ho : w.Denotes b h other) : content = other := by
  obtain ⟨tree, hstored, hhandle, rfl⟩ := hc
  obtain ⟨tree', hstored', hhandle', rfl⟩ := ho
  rw [hstored.unique hstored' (hhandle.trans hhandle'.symm)]

theorem complete_of_children {w : World} {a : ArenaId} {h : Handle} {node : Node}
    (hr : w.resolve a h = .ok node) (hchildren : ∀ child ∈ node.children, w.Complete a child) :
    w.Complete a h := by
  obtain ⟨trees, hall, hhandles⟩ := exists_of_forall_mem hchildren
  exact ⟨.node h node trees, .node hr hhandles hall, rfl⟩

theorem trees_of_denotes {w : World} {a : ArenaId} {handles : List Handle}
    {contents : List Content} (h : List.Forall₂ (w.Denotes a) handles contents) :
    ∃ trees : List Tree, (∀ t ∈ trees, t.Stored w a) ∧ trees.map Tree.handle = handles ∧
      Tree.contents trees = contents := by
  induction h with
  | nil => exact ⟨[], by simp, rfl, rfl⟩
  | cons hfirst _ ih =>
    obtain ⟨tree, hstored, rfl, rfl⟩ := hfirst
    obtain ⟨trees, hall, rfl, rfl⟩ := ih
    exact ⟨tree :: trees, List.forall_mem_cons.mpr ⟨hstored, hall⟩, rfl, rfl⟩

theorem denotes_of_resolve {w : World} {a : ArenaId} {h : Handle} {node : Node}
    {contents : List Content} (hr : w.resolve a h = .ok node)
    (hchildren : List.Forall₂ (w.Denotes a) node.children contents) :
    w.Denotes a h (node.contentWith contents) := by
  obtain ⟨trees, hall, hhandles, rfl⟩ := trees_of_denotes hchildren
  exact ⟨.node h node trees, .node hr hhandles hall, rfl, rfl⟩

end World

def oldText : Tree := .node (ArenaId.handle ⟨0⟩ 0 0) (.text "old") []

theorem stored_oldText : oldText.Stored (twoArenas.store ⟨0⟩ (.text "old")) ⟨0⟩ :=
  .node (World.Holds.resolve ⟨0, 0, rfl, rfl⟩) rfl (by simp)

/-- A text in the first arena, which the second is linked to. -/
def linkedText : World :=
  (twoArenas.store ⟨0⟩ (.text "old")).modifyArena ⟨1⟩ (·.addLink ⟨0⟩)

theorem reach_linkedText : linkedText.InReach ⟨1⟩ ⟨0⟩ :=
  .single (List.mem_singleton.mpr rfl)

end MarkupArena
