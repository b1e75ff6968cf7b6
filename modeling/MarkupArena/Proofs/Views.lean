import MarkupArena.Proofs.Traversal
import MarkupArena.Render.Outline
import MarkupArena.Walk.Content

/-! What readers see of a stored tree: its outline and the order in which a walk visits it, as
functions of the tree. Where a tree is rendered, all of it is stored. -/
namespace MarkupArena

theorem exists_of_forall₂ {α β γ : Type} {R : α → γ → Prop} {f : γ → β} {xs : List α} {ys : List β}
    (h : List.Forall₂ (fun x y => ∃ z, R x z ∧ f z = y) xs ys) :
    ∃ zs, List.Forall₂ R xs zs ∧ zs.map f = ys := by
  induction h with
  | nil => exact ⟨[], .nil, rfl⟩
  | cons hfirst _ ih =>
    obtain ⟨z, hz, rfl⟩ := hfirst
    obtain ⟨zs, hzs, rfl⟩ := ih
    exact ⟨z :: zs, .cons hz hzs, rfl⟩

namespace Content

mutual

/-- The lines of an outline at a level of indentation. -/
def outline (level : Nat) : Content → List String
  | element info attributes children =>
    World.tagLines level ⟨info, attributes, []⟩ ++ outlines (level + 1) children
  | text value => [World.outlineLine level (World.inQuotes value)]
  | fragment children => outlines level children
  | rendered markup =>
    [World.outlineLine level ("#preserialized " ++ World.inQuotes markup.html)]

def outlines (level : Nat) : List Content → List String
  | [] => []
  | content :: rest => outline level content ++ outlines level rest

end

theorem outlines_eq_flatten (level : Nat) (contents : List Content) :
    outlines level contents = (contents.map (outline level)).flatten := by
  induction contents with
  | nil => rfl
  | cons content rest ih => rw [outlines, List.map_cons, List.flatten_cons, ih]

end Content

namespace Tree

mutual

/-- The nodes of a tree in document order, as a walk visits them. -/
def visits (depth : Nat) : Tree → List Visited
  | node handle stored children => ⟨stored, handle, depth⟩ :: visitsAll (depth + 1) children

def visitsAll (depth : Nat) : List Tree → List Visited
  | [] => []
  | tree :: rest => visits depth tree ++ visitsAll depth rest

end

theorem mem_visitsAll {trees : List Tree} {depth : Nat} {v : Visited} :
    v ∈ visitsAll depth trees ↔ ∃ tree ∈ trees, v ∈ tree.visits depth := by
  induction trees with
  | nil => simp [visitsAll]
  | cons tree rest ih => simp [visitsAll, ih]

theorem visitsAll_append (depth : Nat) (first second : List Tree) :
    visitsAll depth (first ++ second) = visitsAll depth first ++ visitsAll depth second := by
  induction first with
  | nil => rfl
  | cons tree rest ih => rw [List.cons_append, visitsAll, visitsAll, ih, List.append_assoc]

end Tree

namespace World

variable {w : World} {a : ArenaId}

/-- Where markup is rendered, the whole tree is stored, and the markup is what the tree says. -/
theorem denotes_of_renderNode {fuel : Nat} {h : Handle} {html : String}
    (hr : w.renderNode a fuel h = .ok html) :
    ∃ content, w.Denotes a h content ∧ content.markup = html := by
  induction fuel generalizing h html with
  | zero => cases hr
  | succ fuel ih =>
    cases hnode : w.resolve a h with
    | error f =>
      rw [renderNode_of_error hnode] at hr
      cases hr
    | ok node =>
      rw [renderNode_of_resolve hnode, map_eq_pure_bind] at hr
      obtain ⟨results, hresults, hr⟩ := bind_eq_ok_iff.mp hr
      obtain rfl := Except.ok.inj hr
      obtain ⟨contents, hchildren, rfl⟩ :=
        exists_of_forall₂ ((exists_of_mapM hresults).imp fun _ _ => ih)
      refine ⟨_, denotes_of_resolve hnode hchildren, ?_⟩
      rw [Content.markup_contentWith, Content.markups_eq_map]

/-- A stored tree has the outline of what it says. -/
theorem outlineNode_of_stored {tree : Tree} (hstored : tree.Stored w a) {fuel : Nat}
    (hfuel : tree.height ≤ fuel) (level : Nat) :
    w.outlineNode a fuel level tree.handle = .ok (tree.content.outline level) := by
  induction hstored generalizing fuel level with
  | @node handle stored children hresolve hhandles hchildren ih =>
    cases fuel with
    | zero => cases hfuel
    | succ fuel =>
      have hall := fun level => Tree.mapM_children hhandles fun child hchild => ih child hchild
        ((Tree.height_le_heights hchild).trans (Nat.le_of_succ_le_succ hfuel)) level
      rw [Tree.handle, outlineNode, hresolve, Tree.content]
      cases stored with
      | element e =>
        show (e.children.mapM (w.outlineNode a fuel (level + 1)) >>= fun content =>
          pure (tagLines level e ++ content.flatten)) = _
        rw [show e.children.mapM (w.outlineNode a fuel (level + 1)) = _ from hall (level + 1)]
        refine congrArg (fun lines => Except.ok (tagLines level e ++ lines)) ?_
        exact (Content.outlines_eq_flatten ..).symm
      | text value => rfl
      | fragment handles =>
        show (handles.mapM (w.outlineNode a fuel level) >>= fun content =>
          pure content.flatten) = _
        rw [show handles.mapM (w.outlineNode a fuel level) = _ from hall level]
        exact congrArg Except.ok (Content.outlines_eq_flatten ..).symm
      | rendered markup => rfl

end World

namespace Cursor

variable {w : World} {a : ArenaId}

theorem walk_nil : walk w a [] = ([], none) := by
  rw [walk]
  rfl

theorem walk_cons_of_resolve {h : Handle} {node : Node} (hr : w.resolve a h = .ok node)
    (depth bound : Nat) (rest : Cursor) : walk w a (⟨h, depth, bound + 1⟩ :: rest) =
      (⟨node, h, depth⟩ :: (walk w a (below node depth bound ++ rest)).1,
        (walk w a (below node depth bound ++ rest)).2) := by
  have hnext : next w a (⟨h, depth, bound + 1⟩ :: rest) =
      .ok (some (⟨node, h, depth⟩, below node depth bound ++ rest)) := by
    simp only [next, hr]
  rw [walk]
  split
  next hn => simp [hnext] at hn
  next hn => simp [hnext] at hn
  next hn =>
    rw [hnext] at hn
    obtain ⟨rfl, rfl⟩ := Prod.mk.inj (Option.some.inj (Except.ok.inj hn))
    rfl

/-- A walk visits what is pending in order, if it visits each tree as a whole. -/
theorem walk_trees {trees : List Tree} {depth bound : Nat}
    (h : ∀ tree ∈ trees, ∀ rest, walk w a (⟨tree.handle, depth, bound⟩ :: rest) =
      (tree.visits depth ++ (walk w a rest).1, (walk w a rest).2)) (rest : Cursor) :
    walk w a (trees.map (fun tree => ⟨tree.handle, depth, bound⟩) ++ rest) =
      (Tree.visitsAll depth trees ++ (walk w a rest).1, (walk w a rest).2) := by
  induction trees with
  | nil => rfl
  | cons tree others ih =>
    rw [List.map_cons, List.cons_append, h tree List.mem_cons_self,
      ih fun t ht => h t (List.mem_cons_of_mem _ ht), Tree.visitsAll, List.append_assoc]

/-- A walk visits a stored tree in document order before anything else that is pending. -/
theorem walk_of_stored {tree : Tree} (hstored : tree.Stored w a) {bound : Nat}
    (hbound : tree.height ≤ bound) (depth : Nat) (rest : Cursor) :
    walk w a (⟨tree.handle, depth, bound⟩ :: rest) =
      (tree.visits depth ++ (walk w a rest).1, (walk w a rest).2) := by
  induction hstored generalizing bound depth rest with
  | @node handle stored children hresolve hhandles hchildren ih =>
    cases bound with
    | zero => cases hbound
    | succ bound =>
      have hbelow : below stored depth bound =
          children.map fun tree => ⟨tree.handle, depth + 1, bound⟩ := by
        rw [below, ← hhandles, List.map_map]
        rfl
      have hvisit : ∀ child ∈ children, ∀ rest,
          walk w a (⟨child.handle, depth + 1, bound⟩ :: rest) =
            (child.visits (depth + 1) ++ (walk w a rest).1, (walk w a rest).2) :=
        fun child hchild => ih child hchild
          ((Tree.height_le_heights hchild).trans (Nat.le_of_succ_le_succ hbound)) (depth + 1)
      rw [Tree.handle, walk_cons_of_resolve hresolve, hbelow, walk_trees hvisit, Tree.visits]
      rfl

end Cursor

namespace World

variable {w : World} {a : ArenaId} {tree : Tree}

theorem render_of_stored (hstored : tree.Stored w a) (hheight : tree.height ≤ w.depthBound)
    (withDoctype : Bool) : w.render a tree.handle withDoctype =
      .ok (if withDoctype then doctype ++ tree.content.markup else tree.content.markup) := by
  unfold render
  rw [renderNode_of_stored hstored hheight]
  rfl

theorem Ordered.render_eq (hw : w.Ordered) (hstored : tree.Stored w a) (withDoctype : Bool) :
    w.render a tree.handle withDoctype =
      .ok (if withDoctype then doctype ++ tree.content.markup else tree.content.markup) :=
  render_of_stored hstored (hw.height_le_depthBound hstored) withDoctype

theorem Ordered.outline_eq (hw : w.Ordered) (hstored : tree.Stored w a) :
    w.outline a tree.handle = .ok ("\n".intercalate (tree.content.outline 0)) := by
  unfold outline
  rw [outlineNode_of_stored hstored (hw.height_le_depthBound hstored)]
  rfl

theorem Ordered.walk_eq (hw : w.Ordered) (hstored : tree.Stored w a) :
    w.walk a tree.handle = .ok (tree.visits 0) := by
  have hwalk : Cursor.walk w a (Cursor.start w tree.handle) = (tree.visits 0, none) := by
    rw [Cursor.start, Cursor.walk_of_stored hstored (hw.height_le_depthBound hstored),
      Cursor.walk_nil, List.append_nil]
  unfold walk
  rw [hwalk]

/-- The text of a tree is that of the nodes that a walk visits. -/
theorem textContent_of_walk {root : Handle} {visited : List Visited}
    (hwalk : w.walk a root = .ok visited) :
    w.textContent a root = String.join <$> visited.mapM fun v => ownText v.node := by
  unfold walk at hwalk
  unfold textContent
  split at hwalk
  next heq =>
    rw [Except.ok.inj hwalk] at heq
    rw [heq, map_eq_pure_bind]
  next => cases hwalk

/-- The text of a node without children is its own. -/
theorem Ordered.textContent_of_leaf (hw : w.Ordered) {h : Handle} {node : Node}
    (hr : w.resolve a h = .ok node) (hleaf : node.children = []) :
    w.textContent a h = ownText node := by
  have hstored : (Tree.node h node []).Stored w a := .node hr hleaf.symm (List.forall_mem_nil _)
  have hwalk : w.walk a h = .ok [⟨node, h, 0⟩] := hw.walk_eq hstored
  rw [textContent_of_walk hwalk, List.mapM_cons, List.mapM_nil]
  cases ownText node with
  | error f => rfl
  | ok text => exact congrArg Except.ok String.empty_append

theorem denotes_of_render {h : Handle} {withDoctype : Bool} {html : String}
    (hr : w.render a h withDoctype = .ok html) :
    ∃ content, w.Denotes a h content ∧
      (if withDoctype then doctype ++ content.markup else content.markup) = html := by
  obtain ⟨markup, hmarkup, hr⟩ := bind_eq_ok_iff.mp hr
  obtain ⟨content, hdenotes, rfl⟩ := denotes_of_renderNode hmarkup
  exact ⟨content, hdenotes, Except.ok.inj hr⟩

end World

end MarkupArena
