import MarkupArena.Proofs.Sharing
import MarkupArena.Proofs.Unchecked
import MarkupArena.Proofs.Views

/-! What a filter leaves of a tree. A node that is left stands for the node that it was, with what
is left of its children, whether it kept its handle or was stored again. -/
namespace MarkupArena

/-- A node without its children, as it is by itself. -/
def Node.alone : Node → Node
  | .element e => .element { e with children := [] }
  | .fragment _ => .fragment []
  | node => node

theorem Node.element_of_alone {made : Node} {e : Element}
    (h : made.alone = (Node.element e).alone) :
    ∃ children, made = .element { e with children } := by
  cases made with
  | element other =>
    obtain ⟨info, attributes, children⟩ := other
    obtain ⟨rfl, rfl, -⟩ := Element.mk.inj (Node.element.inj h)
    exact ⟨children, rfl⟩
  | text value => cases h
  | fragment children => cases h
  | rendered markup => cases h

theorem Node.fragment_of_alone {made : Node} {children : List Handle}
    (h : made.alone = (Node.fragment children).alone) : ∃ others, made = .fragment others := by
  cases made with
  | fragment others => exact ⟨others, rfl⟩
  | text value => cases h
  | element e => cases h
  | rendered markup => cases h

/-- A node that has children gets others without a change of what it is by itself. -/
theorem Node.alone_withChildren {node : Node} (hchildren : node.children ≠ [])
    (children : List Handle) : (node.withChildren children).alone = node.alone ∧
      (node.withChildren children).children = children := by
  cases node with
  | element e => exact ⟨rfl, rfl⟩
  | fragment old => exact ⟨rfl, rfl⟩
  | text value => exact absurd rfl hchildren
  | rendered markup => exact absurd rfl hchildren

namespace Tree

mutual

/-- The nodes of a tree in document order, each with those above it, the nearest first. -/
def lineages (above : List Node) : Tree → List (Node × List Node)
  | node _ stored children => (stored, above) :: lineagesAll (stored :: above) children

def lineagesAll (above : List Node) : List Tree → List (Node × List Node)
  | [] => []
  | tree :: rest => lineages above tree ++ lineagesAll above rest

end

/-- The nodes in document order, each by itself and with its depth. -/
def profile (visited : List Visited) : List (Node × Nat) :=
  visited.map fun v => (v.node.alone, v.depth)

/-- A test accepts a node and all that is above it. -/
def acceptsLine (accepts : Node → Bool) (line : Node × List Node) : Bool :=
  (line.1 :: line.2).all fun node => accepts node.alone

/-- The nodes that a test accepts together with all that is above them. -/
def accepted (accepts : Node → Bool) (lines : List (Node × List Node)) : List (Node × Nat) :=
  (lines.filter (acceptsLine accepts)).map fun line => (line.1.alone, line.2.length)

section
variable {accepts : Node → Bool}

mutual

/-- Nothing under a node that the test refuses is accepted. -/
theorem accepted_lineages_of_refused {above : List Node} {refused : Node} (hmem : refused ∈ above)
    (hrefused : accepts refused.alone = false) (tree : Tree) :
    accepted accepts (tree.lineages above) = [] := by
  cases tree with
  | node handle stored children =>
    have hbelow := accepted_lineagesAll_of_refused (List.mem_cons_of_mem stored hmem) hrefused
      children
    have hline : acceptsLine accepts (stored, above) = false :=
      List.all_eq_false.mpr ⟨refused, List.mem_cons_of_mem stored hmem, by simp [hrefused]⟩
    unfold accepted at hbelow ⊢
    rw [lineages, List.filter_cons_of_neg (by simp [hline])]
    exact hbelow

theorem accepted_lineagesAll_of_refused {above : List Node} {refused : Node}
    (hmem : refused ∈ above) (hrefused : accepts refused.alone = false) (trees : List Tree) :
    accepted accepts (lineagesAll above trees) = [] := by
  cases trees with
  | nil => rfl
  | cons tree rest =>
    have hfirst := accepted_lineages_of_refused hmem hrefused tree
    have hrest := accepted_lineagesAll_of_refused hmem hrefused rest
    unfold accepted at hfirst hrest ⊢
    rw [lineagesAll, List.filter_append, List.map_append, hfirst, hrest, List.append_nil]

end

end

end Tree

namespace World

theorem extends_perform_link (w : World) (a source : ArenaId) :
    w.Extends (perform (link a source) w).2 := by
  rcases perform_link_cases w a source with ⟨-, hrun⟩ | ⟨-, hrun⟩
  · rw [hrun]
    exact .refl
  · rw [hrun]
    exact (Relation.ReflTransGen.single (.link a source)).tail
      (.aside (arenas_tell ..) (stored_tell ..).ge)

/-- A world after an arena was linked to another one, from which nothing is seen that was not seen
before. -/
structure Linked (w w₁ : World) (source dest : ArenaId) : Prop where
  later : w.Extends w₁
  opened : w₁.Opened dest
  options : (w₁.arena dest).options = (w.arena dest).options
  ordered : w₁.Ordered
  reach : w₁.InReach dest source
  back : ∀ h node, w₁.resolve source h = .ok node → w.resolve source h = .ok node

theorem Ordered.linked {w w₁ : World} (hw : w.Ordered) {source dest : ArenaId}
    (hdest : w.Opened dest) (hlink : perform (link dest source) w = (.ok ⟨⟩, w₁)) :
    w.Linked w₁ source dest := by
  obtain ⟨_, hreached, -, hreach⟩ := perform_link_reaches hdest source
  obtain rfl := (Prod.mk.inj (hlink.symm.trans hreached)).2
  obtain rfl : _ = w₁ := congrArg Prod.snd hlink
  have hextends := w.extends_perform_link dest source
  exact {
    later := hextends
    opened := hextends.grows.opened dest hdest
    options := hextends.grows.options hdest
    ordered := hextends.evolves.ordered hw
    reach := hreach
    back := fun _ _ => resolve_of_perform_link }

theorem Gains.extends {dest : ArenaId} {n : Nat} {w u : World} (h : Gains dest n w u) :
    w.Extends u := by
  induction h with
  | none => exact .refl
  | store _ _ hall ih => exact ih.tail (growth_store hall)

end World

namespace Revision

/-- Drops the nodes that a test refuses. -/
def dropping (accepts : Node → Handle → Bool) (node : Node) (h : Handle) (_ : Nat) : Change :=
  bif accepts node h then .keep else .remove

theorem replacements?_dropping (accepts : Node → Handle → Bool) (node : Node) (h handle : Handle)
    (depth : Nat) : (dropping accepts node h depth).replacements? handle =
      bif accepts node h then none else some [] := by
  unfold dropping
  cases accepts node h <;> rfl

end Revision

namespace Visit

/-- The record of a visit that drops nodes. A node that is left is seen from the destination as it
was by itself, over what is left of its children. -/
inductive Pruned (w w' : World) (source dest : ArenaId) (accepts : Node → Handle → Bool) :
    Visit → Prop where
  | dropped {h : Handle} {node : Node} : w.resolve source h = .ok node → accepts node h = false →
      Pruned w w' source dest accepts (.given h [] [])
  | left {h result : Handle} {node made : Node} {children : List Visit} :
      w.resolve source h = .ok node → accepts node h = true →
      children.map handle = node.children →
      (∀ child ∈ children, Pruned w w' source dest accepts child) →
      w'.resolve dest result = .ok made → made.alone = node.alone →
      made.children = children.flatMap results →
      Pruned w w' source dest accepts (.kept h children result)

section
variable {w w' : World} {source dest : ArenaId} {accepts : Node → Handle → Bool} {visit : Visit}

theorem Pruned.grow {w'' : World} (hgrow : World.Grows w' w'')
    (h : visit.Pruned w w' source dest accepts) : visit.Pruned w w'' source dest accepts := by
  induction h with
  | dropped hnode hrefuses => exact .dropped hnode hrefuses
  | left hnode haccepts hhandles _ hmade halone hchildren ih =>
    exact .left hnode haccepts hhandles ih (World.resolve_grow hgrow hmade) halone hchildren

theorem pruned_of_tells (hgrow : World.Grows w w') (hreach : w'.InReach dest source) {depth : Nat}
    (ht : visit.Tells w w' source dest (Revision.dropping accepts) depth) :
    visit.Pruned w w' source dest accepts := by
  have haccepts : ∀ {node h depth handle},
      (Revision.dropping accepts node h depth).replacements? handle = none →
      accepts node h = true := by
    intro node h depth handle hstays
    rw [Revision.replacements?_dropping] at hstays
    cases ha : accepts node h with
    | true => rfl
    | false =>
      rw [ha] at hstays
      cases hstays
  induction ht with
  | @same depth h node children hnode hstays hhandles htells hsame ih =>
    have hseen := World.resolve_of_reach hreach (World.resolve_grow hgrow hnode)
    refine .left hnode (haccepts hstays) hhandles ih hseen rfl ?_
    rw [List.flatMap_def, (results_eq_iff htells).mpr hsame, hhandles, ← List.flatMap_def,
      List.flatMap_singleton']
  | @rebuilt depth h result node children hnode hstays hhandles htells hchanged _ hold ih =>
    have hchildren : node.children ≠ [] := by
      rw [← hhandles]
      intro hnil
      obtain rfl := List.map_eq_nil_iff.mp hnil
      cases hchanged
    obtain ⟨halone, hplaces⟩ := Node.alone_withChildren hchildren (children.flatMap place)
    refine .left hnode (haccepts hstays) hhandles ih hold.resolve halone (hplaces.trans ?_)
    exact List.flatMap_congr fun child hchild => (htells child hchild).place_eq
  | @given depth h node nodes results hnode hgives hbecome =>
    rw [Revision.replacements?_dropping] at hgives
    cases ha : accepts node h with
    | true =>
      rw [ha] at hgives
      cases hgives
    | false =>
      rw [ha] at hgives
      obtain rfl := Option.some.inj hgives
      cases hbecome
      exact .dropped hnode ha

end

section
variable {w w' : World} {source dest : ArenaId} {accepts : Node → Bool}

/-- Trees under the results of visits, and no node in them but those that the test accepts, with all
above them, in the trees that were visited. -/
def Leaves (w' : World) (dest : ArenaId) (accepts : Node → Bool) (above : List Node)
    (results : List Handle) (lines : List (Node × List Node)) : Prop :=
  ∃ trees : List Tree, trees.map Tree.handle = results ∧ (∀ tree ∈ trees, tree.Stored w' dest) ∧
    Tree.profile (Tree.visitsAll above.length trees) = Tree.accepted accepts lines

theorem leaves_append {above : List Node} {results more : List Handle}
    {lines others : List (Node × List Node)} (h : Leaves w' dest accepts above results lines)
    (hmore : Leaves w' dest accepts above more others) :
    Leaves w' dest accepts above (results ++ more) (lines ++ others) := by
  obtain ⟨trees, rfl, hstored, hprofile⟩ := h
  obtain ⟨trees', rfl, hstored', hprofile'⟩ := hmore
  refine ⟨trees ++ trees', List.map_append, List.forall_mem_append.mpr ⟨hstored, hstored'⟩, ?_⟩
  unfold Tree.profile Tree.accepted at *
  rw [Tree.visitsAll_append, List.map_append, hprofile, hprofile', List.filter_append,
    List.map_append]

theorem leaves_all {above : List Node} {visits : List Visit} {trees : List Tree}
    (h : ∀ visit ∈ visits, ∀ tree : Tree, tree.Stored w source → tree.handle = visit.handle →
      Leaves w' dest accepts above visit.results (tree.lineages above))
    (hstored : ∀ tree ∈ trees, tree.Stored w source)
    (hhandles : trees.map Tree.handle = visits.map handle) :
    Leaves w' dest accepts above (visits.flatMap results) (Tree.lineagesAll above trees) := by
  induction visits generalizing trees with
  | nil =>
    obtain rfl := List.map_eq_nil_iff.mp hhandles
    exact ⟨[], rfl, List.forall_mem_nil _, rfl⟩
  | cons visit visits ih =>
    obtain ⟨hfirst, hrest⟩ := List.forall_mem_cons.mp h
    cases trees with
    | nil => cases hhandles
    | cons tree trees =>
      obtain ⟨htree, htrees⟩ := List.forall_mem_cons.mp hstored
      obtain ⟨hhandle, hhandles⟩ := List.cons.inj hhandles
      exact leaves_append (hfirst tree htree hhandle) (ih hrest htrees hhandles)

/-- What a visit leaves of a stored tree: the nodes that the test accepts together with all that is
above them, in order and each at its depth. -/
theorem Pruned.leaves {visit : Visit}
    (h : visit.Pruned w w' source dest fun node _ => accepts node.alone) {tree : Tree}
    (hstored : tree.Stored w source) (hhandle : tree.handle = visit.handle) {above : List Node}
    (habove : ∀ node ∈ above, accepts node.alone = true) :
    Leaves w' dest accepts above visit.results (tree.lineages above) := by
  induction h generalizing tree above with
  | @dropped h node hnode hrefuses =>
    cases hstored with
    | @node handle stored children hresolve _ _ =>
    obtain rfl : handle = h := hhandle
    obtain rfl := World.resolve_unique hnode hresolve
    refine ⟨[], rfl, List.forall_mem_nil _, ?_⟩
    have hbelow : Tree.accepted accepts (Tree.lineagesAll (node :: above) children) = [] :=
      Tree.accepted_lineagesAll_of_refused List.mem_cons_self hrefuses children
    unfold Tree.accepted at hbelow ⊢
    rw [Tree.lineages, List.filter_cons_of_neg (by simp [Tree.acceptsLine, hrefuses]), hbelow]
    rfl
  | @left h result node made children hnode haccepts hhandles _ hmade halone hchildren ih =>
    cases hstored with
    | @node handle stored trees hresolve htrees hstored =>
    obtain rfl : handle = h := hhandle
    obtain rfl := World.resolve_unique hnode hresolve
    have habove' : ∀ other ∈ node :: above, accepts other.alone = true :=
      List.forall_mem_cons.mpr ⟨haccepts, habove⟩
    obtain ⟨left, hresults, hleft, hprofile⟩ := leaves_all
      (fun child hchild tree htree hhandle => ih child hchild htree hhandle habove') hstored
      (htrees.trans hhandles.symm)
    refine ⟨[.node result made left], rfl, ?_, ?_⟩
    · exact List.forall_mem_singleton.mpr (.node hmade (hresults.trans hchildren.symm) hleft)
    · have hline : Tree.acceptsLine accepts (node, above) = true := List.all_eq_true.mpr habove'
      unfold Tree.profile Tree.accepted at hprofile ⊢
      rw [Tree.lineages, List.filter_cons_of_pos hline, List.map_cons, ← hprofile]
      simp only [Tree.visitsAll, Tree.visits, List.append_nil, List.map_cons, halone,
        List.length_cons]

end

end Visit

namespace Revision

variable {source dest : ArenaId}

/-- Work on each of a list that leaves the state as it is. -/
theorem perform_mapM_of_still {S α β : Type} {f : α → Work S β} {g : α → β} {items : List α} {s : S}
    (h : ∀ x ∈ items, perform (f x) s = (.ok (g x), s)) :
    perform (items.mapM f) s = (.ok (items.map g), s) := by
  induction items with
  | nil => rfl
  | cons x rest ih =>
    obtain ⟨hfirst, hrest⟩ := List.forall_mem_cons.mp h
    rw [List.mapM_cons, perform_bind, hfirst]
    dsimp only
    rw [perform_bind, ih hrest]
    rfl

/-- A visitor that lets every node of a tree stay ends with the very tree and stores nothing. -/
theorem perform_visit_of_stays {w : World} {visitor : Node → Handle → Nat → Change} {tree : Tree}
    (hstored : tree.Stored w source) {fuel depth : Nat} (hfuel : tree.height ≤ fuel)
    (hstays : ∀ v ∈ tree.visits depth,
      (visitor v.node v.handle v.depth).replacements? v.handle = none) :
    perform (visit (m := Action) source dest (fun n h d => pure (visitor n h d)) fuel depth
      tree.handle) w = (.ok [tree.handle], w) := by
  induction hstored generalizing fuel depth with
  | @node handle stored children hresolve hhandles hchildren ih =>
    cases fuel with
    | zero => cases hfuel
    | succ fuel =>
      rw [Tree.visits, List.forall_mem_cons] at hstays
      obtain ⟨hself, hbelow⟩ := hstays
      have hall : perform (stored.children.mapM (visit (m := Action) source dest
          (fun n h d => pure (visitor n h d)) fuel (depth + 1))) w =
          (.ok (stored.children.map fun h => [h]), w) := by
        refine perform_mapM_of_still fun h hh => ?_
        rw [← hhandles] at hh
        obtain ⟨child, hchild, rfl⟩ := List.mem_map.mp hh
        refine ih child hchild ?_ fun v hv => hbelow v (Tree.mem_visitsAll.mpr ⟨child, hchild, hv⟩)
        exact (Tree.height_le_heights hchild).trans (Nat.le_of_succ_le_succ hfuel)
      rw [Tree.handle, visit_eq, perform_bind, resolve, perform_observe, hresolve]
      dsimp only
      rw [hself, perform_bind, hall]
      dsimp only
      rw [settle, if_pos rfl]
      rfl

/-- A filter is a revision that drops nodes. -/
theorem perform_filterNodes (w : World) (root : Handle) (accepts : Node → Handle → Bool) :
    perform (filterNodes (m := Action) source dest root fun node h => pure (accepts node h)) w =
      perform (revise (m := Action) source dest root fun node h depth =>
        pure (dropping accepts node h depth)) w := by
  rw [filterNodes_eq]
  rfl

/-- A visit after the link that succeeds has a record. -/
theorem tells_of_linked {w w₁ u v : World} (hlinked : w.Linked w₁ source dest)
    {visitor : Node → Handle → Nat → Change} {bound depth : Nat} {h : Handle}
    (hissued : w₁.Issued h) {n : Nat} (hu : World.Gains dest n w₁ u) {results : List Handle}
    (hrun : perform (visit source dest (fun n h d => pure (visitor n h d)) bound depth h) u =
      (.ok results, v)) :
    ∃ visit : Visit, visit.handle = h ∧ visit.results = results ∧
      World.Gains dest (visit.rebuilt + visit.built) u v ∧
      visit.Tells w v source dest visitor depth :=
  tells_of_visit hlinked.opened hlinked.ordered.closed
    (fun _ hissued => hissued.ages hlinked.later.grows.ages) hlinked.back bound depth hissued hu
    hrun

/-- A filter that succeeds has a record, and ends with what is left of the root, or with an empty
fragment where the root is dropped. -/
theorem pruned_of_filterNodes {w w' : World} {root r : Handle} {accepts : Node → Handle → Bool}
    (hw : w.Ordered) (hdest : w.Opened dest)
    (hrun : perform (filterNodes (m := Action) source dest root fun node h =>
      pure (accepts node h)) w = (.ok r, w')) :
    w.Extends w' ∧ ∃ visit : Visit, visit.handle = root ∧
      visit.Pruned w w' source dest accepts ∧
      (visit.results = [r] ∨ visit.results = [] ∧ w'.Holds dest r (.fragment [])) := by
  rw [perform_filterNodes] at hrun
  obtain ⟨w₁, w₂, results, hlink, hvisit, hend⟩ := perform_revise_eq_ok hrun
  have hlinked := hw.linked hdest hlink
  obtain ⟨visit, hroot, rfl, hgains, htells⟩ :=
    tells_of_linked hlinked (issued_of_visit hvisit) (.none w₁) hvisit
  have hafter : w.Extends w₂ := hlinked.later.trans hgains.extends
  have hpruned := Visit.pruned_of_tells hafter.grows (hlinked.reach.grow hgains.grows) htells
  have hopened := hgains.grows.opened dest hlinked.opened
  rcases hend with ⟨hone, rfl⟩ | ⟨hmany, hstore⟩
  · exact ⟨hafter, visit, hroot, hpruned, .inl hone⟩
  · have hnone : visit.results = [] := by
      cases hpruned with
      | dropped => rfl
      | left => exact absurd rfl hmany
    obtain ⟨hgain, -, node, rfl, hold⟩ := makes_allocate _ w₂ w' r hopened hstore
    rw [hnone] at hold
    exact ⟨hafter.trans hgain.extends, visit, hroot, hpruned.grow hgain.grows, .inr ⟨hnone, hold⟩⟩

end Revision

namespace Tree

variable {accepts : Node → Bool}

theorem accepts_of_mem_profile {lines : List (Node × List Node)} {visited : List Visited}
    (h : profile visited = accepted accepts lines) {v : Visited} (hv : v ∈ visited) :
    accepts v.node.alone = true := by
  have hmem : (v.node.alone, v.depth) ∈ accepted accepts lines := by
    rw [← h]
    exact List.mem_map_of_mem hv
  obtain ⟨line, hline, heq⟩ := List.mem_map.mp hmem
  obtain ⟨-, haccepts⟩ := List.mem_filter.mp hline
  rw [← (Prod.mk.inj heq).1]
  exact List.all_eq_true.mp haccepts line.1 List.mem_cons_self

end Tree

namespace World

/-- A filter by what nodes are by themselves that keeps the root of a tree leaves the nodes that it
accepts together with all that is above them, in document order, each at its depth; and the same
filter changes nothing about what is left. -/
theorem filtered_once {w w' : World} (hw : w.Reachable) {source dest : ArenaId}
    (hdest : w.Opened dest) {tree : Tree} (hstored : tree.Stored w source) {accepts : Node → Bool}
    (hroot : accepts tree.root.alone = true) {r : Handle}
    (hrun : perform (Revision.filterNodes (m := Action) source dest tree.handle fun node _ =>
      pure (accepts node.alone)) w = (.ok r, w')) :
    perform (Revision.filterNodes (m := Action) dest dest r fun node _ =>
      pure (accepts node.alone)) w' = (.ok r, w') ∧
    ∃ visited, w'.walk dest r = .ok visited ∧
      Tree.profile visited = Tree.accepted accepts (tree.lineages []) := by
  obtain ⟨hextends, visit, hhandle, hpruned, hresult⟩ :=
    Revision.pruned_of_filterNodes hw.ordered hdest hrun
  have hordered := hextends.evolves.ordered hw.ordered
  obtain ⟨trees, hhandles, hleft, hprofile⟩ :=
    hpruned.leaves hstored hhandle.symm (List.forall_mem_nil _)
  have hone : visit.results = [r] := by
    refine hresult.resolve_right fun hnone => ?_
    cases hpruned with
    | left => cases hnone.1
    | dropped hnode hrefuses =>
      obtain rfl : tree.handle = _ := hhandle.symm
      obtain rfl := resolve_unique hstored.resolve hnode
      rw [hroot] at hrefuses
      cases hrefuses
  rw [hone] at hhandles
  obtain ⟨left, rfl, rfl⟩ := List.map_eq_singleton_iff.mp hhandles
  have hstored' := hleft left List.mem_cons_self
  rw [List.length_nil, Tree.visitsAll, Tree.visitsAll, List.append_nil] at hprofile
  refine ⟨?_, _, hordered.walk_eq hstored', hprofile⟩
  have hlink : perform (link dest dest) w' = (.ok ⟨⟩, w') :=
    congrArg (Prod.mk _) (if_pos (.inl rfl))
  have hvisit : perform (Revision.visit (m := Action) dest dest (fun node h depth =>
      pure (Revision.dropping (fun node _ => accepts node.alone) node h depth)) w'.depthBound 0
      left.handle) w' = (.ok [left.handle], w') := by
    refine Revision.perform_visit_of_stays hstored' (hordered.height_le_depthBound hstored') ?_
    intro v hv
    rw [Revision.replacements?_dropping, Tree.accepts_of_mem_profile hprofile hv]
    rfl
  rw [Revision.perform_filterNodes]
  unfold Revision.revise
  simp only [monadLift_self, perform_bind, hlink, perform_observe, hvisit]
  rfl

end World

/-- Refuses what is written. -/
def isNoText : Node → Bool
  | .text _ => false
  | _ => true

def lineTree : Tree := .node (ArenaId.handle ⟨0⟩ 0 0) (.text "line") []

def paragraphTree : Tree :=
  .node (ArenaId.handle ⟨0⟩ 0 1) (.element writtenParagraph) [lineTree]

theorem stored_paragraphTree (schema : Schema) :
    paragraphTree.Stored (besideParagraph schema) ⟨0⟩ := by
  refine .node (World.Holds.resolve ⟨1, 0, rfl, rfl⟩) rfl (List.forall_mem_singleton.mpr ?_)
  exact .node (World.Holds.resolve ⟨0, 0, rfl, rfl⟩) rfl (List.forall_mem_nil _)

/-- The paragraph comes back without its text, stored beside it. -/
theorem perform_filter_paragraph (schema : Schema) :
    perform (Revision.filterNodes (m := Action) ⟨0⟩ ⟨1⟩ paragraphTree.handle fun node _ =>
      pure (isNoText node.alone)) (besideParagraph schema) =
      (.ok (ArenaId.handle ⟨1⟩ 0 0), afterDrop schema) := by
  have hlink : perform (link ⟨1⟩ ⟨0⟩) (besideParagraph schema) =
      (.ok ⟨⟩, besideLinked schema) := rfl
  have htext : (besideLinked schema).resolve ⟨0⟩ lineTree.handle = .ok (.text "line") :=
    World.Holds.resolve ⟨0, 0, rfl, rfl⟩
  have hparagraph : (besideLinked schema).resolve ⟨0⟩ paragraphTree.handle =
      .ok (.element writtenParagraph) := World.Holds.resolve ⟨1, 0, rfl, rfl⟩
  have hline : perform (Revision.visit (m := Action) ⟨0⟩ ⟨1⟩ (fun node h depth =>
      pure (Revision.dropping (fun node _ => isNoText node.alone) node h depth)) 2 1
      lineTree.handle) (besideLinked schema) = (.ok [], besideLinked schema) := by
    rw [Revision.visit_eq, perform_bind, resolve, perform_observe, htext]
    rfl
  have hvisit : perform (Revision.visit (m := Action) ⟨0⟩ ⟨1⟩ (fun node h depth =>
      pure (Revision.dropping (fun node _ => isNoText node.alone) node h depth)) 3 0
      paragraphTree.handle) (besideLinked schema) =
      (.ok [ArenaId.handle ⟨1⟩ 0 0], afterDrop schema) := by
    rw [Revision.visit_eq, perform_bind, resolve, perform_observe, hparagraph]
    show perform ([lineTree.handle].mapM _ >>= _) _ = _
    rw [List.mapM_cons, bind_assoc, perform_bind, hline]
    rfl
  rw [Revision.perform_filterNodes]
  unfold Revision.revise
  rw [perform_bind, monadLift_self, hlink]
  dsimp only
  rw [perform_bind, monadLift_self, perform_observe]
  dsimp only
  rw [perform_bind, show World.depthBound _ = 3 from rfl, hvisit]
  rfl

theorem filtered_once_of_paragraph : (besideParagraph prose).Reachable ∧
    (besideParagraph prose).Opened ⟨1⟩ ∧ paragraphTree.Stored (besideParagraph prose) ⟨0⟩ ∧
    isNoText paragraphTree.root.alone = true ∧
    perform (Revision.filterNodes (m := Action) ⟨1⟩ ⟨1⟩ (ArenaId.handle ⟨1⟩ 0 0) fun node _ =>
      pure (isNoText node.alone)) (afterDrop prose) =
      (.ok (ArenaId.handle ⟨1⟩ 0 0), afterDrop prose) ∧
    ∃ visited, (afterDrop prose).walk ⟨1⟩ (ArenaId.handle ⟨1⟩ 0 0) = .ok visited ∧
      Tree.profile visited = [(.element emptied, 0)] := by
  have hopened : (besideParagraph prose).Opened ⟨1⟩ := Nat.lt_succ_self 1
  obtain ⟨hagain, visited, hwalk, hprofile⟩ := World.filtered_once
    (reachable_besideParagraph prose) hopened (stored_paragraphTree prose) rfl
    (perform_filter_paragraph prose)
  exact ⟨reachable_besideParagraph prose, hopened, stored_paragraphTree prose, rfl, hagain, visited,
    hwalk, hprofile⟩

end MarkupArena
