import MarkupArena.Proofs.Depth
import MarkupArena.Proofs.Gains
import MarkupArena.Proofs.Rebuilding
import MarkupArena.Proofs.Rewriting

/-! What a revision shares with the tree it revises. Nodes with nothing changed under them keep
their handles; the destination gets a new node for each visited one with a change under it, the
nodes that the visitor describes, and nothing else but a fragment for what is not one result. -/
namespace MarkupArena

/-- The record of a visit: a node that stayed, with the visits to its children, or one that gave way
to others; with the handles it came to. -/
inductive Visit where
  | kept (h : Handle) (children : List Visit) (result : Handle)
  | given (h : Handle) (nodes : List Replacement) (results : List Handle)

namespace Visit

def handle : Visit → Handle
  | kept h _ _ => h
  | given h _ _ => h

def results : Visit → List Handle
  | kept _ _ result => [result]
  | given _ _ results => results

/-- Whether replacements are the very handle that they replace, and nothing else. -/
def onlyItself (h : Handle) : List Replacement → Bool
  | [.stored handle] => handle = h
  | _ => false

mutual

/-- Whether a visit came to a change: at the node itself, which gave way to anything but itself, or
under it. -/
def changed : Visit → Bool
  | kept _ children _ => anyChanged children
  | given h nodes _ => !onlyItself h nodes

def anyChanged : List Visit → Bool
  | [] => false
  | visit :: rest => visit.changed || anyChanged rest

end

mutual

/-- How many of the nodes that stayed have a change under them. -/
def rebuilt : Visit → Nat
  | kept _ children _ => rebuiltAll children + if anyChanged children then 1 else 0
  | given .. => 0

def rebuiltAll : List Visit → Nat
  | [] => 0
  | visit :: rest => visit.rebuilt + rebuiltAll rest

end

mutual

/-- How many nodes the building of descriptions takes. -/
def built : Visit → Nat
  | kept _ children _ => builtAll children
  | given _ nodes _ => (nodes.map Replacement.nodeCount).sum

def builtAll : List Visit → Nat
  | [] => 0
  | visit :: rest => visit.built + builtAll rest

end

/-- What stands in a parent in the place of a child: the very child, unless there was a change. -/
def place (visit : Visit) : List Handle :=
  if visit.changed then visit.results else [visit.handle]

/-- A replacement is there already, or it is made and has a new handle. -/
inductive Becomes (w w' : World) (dest : ArenaId) : Replacement → Handle → Prop where
  | stored (h : Handle) : Becomes w w' dest (.stored h) h
  | described {description : Description} {h : Handle} {node : Node} :
      ¬ w.Issued h → w'.Holds dest h node → Becomes w w' dest (.described description) h

/-- A record tells of a visit at a depth, in a world that a revision turns into another. -/
inductive Tells (w w' : World) (source dest : ArenaId) (visitor : Node → Handle → Nat → Change) :
    Nat → Visit → Prop where
  | same {depth : Nat} {h : Handle} {node : Node} {children : List Visit} :
      w.resolve source h = .ok node → (visitor node h depth).replacements? h = none →
      children.map handle = node.children →
      (∀ child ∈ children, Tells w w' source dest visitor (depth + 1) child) →
      anyChanged children = false → Tells w w' source dest visitor depth (.kept h children h)
  | rebuilt {depth : Nat} {h result : Handle} {node : Node} {children : List Visit} :
      w.resolve source h = .ok node → (visitor node h depth).replacements? h = none →
      children.map handle = node.children →
      (∀ child ∈ children, Tells w w' source dest visitor (depth + 1) child) →
      anyChanged children = true → ¬ w.Issued result →
      w'.Holds dest result (node.withChildren (children.flatMap place)) →
      Tells w w' source dest visitor depth (.kept h children result)
  | given {depth : Nat} {h : Handle} {node : Node} {nodes : List Replacement}
      {results : List Handle} :
      w.resolve source h = .ok node → (visitor node h depth).replacements? h = some nodes →
      List.Forall₂ (Becomes w w' dest) nodes results →
      Tells w w' source dest visitor depth (.given h nodes results)

theorem anyChanged_eq (visits : List Visit) : anyChanged visits = visits.any changed := by
  induction visits with
  | nil => rfl
  | cons visit rest ih => rw [anyChanged, List.any_cons, ih]

theorem cost_eq_sum (visits : List Visit) :
    rebuiltAll visits + builtAll visits = (visits.map fun v => v.rebuilt + v.built).sum := by
  induction visits with
  | nil => rfl
  | cons visit rest ih =>
    rw [rebuiltAll, builtAll, List.map_cons, List.sum_cons, ← ih]
    omega

section
variable {w w' : World} {source dest : ArenaId} {visitor : Node → Handle → Nat → Change}

theorem Becomes.grow {w'' : World} (hgrow : World.Grows w' w'') {replacement : Replacement}
    {h : Handle} (hb : Becomes w w' dest replacement h) : Becomes w w'' dest replacement h := by
  cases hb with
  | stored => exact .stored h
  | described hnew hold => exact .described hnew (hold.grow hgrow)

theorem Tells.grow {w'' : World} (hgrow : World.Grows w' w'') {depth : Nat} {visit : Visit}
    (h : Tells w w' source dest visitor depth visit) :
    Tells w w'' source dest visitor depth visit := by
  induction h with
  | same hnode hstays hchildren _ hsame ih => exact .same hnode hstays hchildren ih hsame
  | rebuilt hnode hstays hchildren _ hchanged hnew hold ih =>
    exact .rebuilt hnode hstays hchildren ih hchanged hnew (hold.grow hgrow)
  | given hnode hgives hbecome =>
    exact .given hnode hgives (hbecome.imp fun _ _ => Becomes.grow hgrow)

/-- Replacements come to a handle that was there before only if they are that handle. -/
theorem onlyItself_iff {h : Handle} {nodes : List Replacement} {results : List Handle}
    (hbecome : List.Forall₂ (Becomes w w' dest) nodes results) (hh : w.Issued h) :
    onlyItself h nodes = true ↔ results = [h] := by
  cases hbecome with
  | nil => simp [onlyItself]
  | cons hfirst hrest =>
    cases hrest with
    | nil =>
      cases hfirst with
      | stored => simp [onlyItself]
      | described hnew =>
        simp only [onlyItself, Bool.false_eq_true, List.singleton_inj, false_iff]
        rintro rfl
        exact hnew hh
    | cons => simp [onlyItself]

/-- A visit without a change comes to the visited handle, and no other visit does. -/
theorem Tells.changed_iff {depth : Nat} {visit : Visit}
    (h : Tells w w' source dest visitor depth visit) :
    visit.changed = true ↔ visit.results ≠ [visit.handle] := by
  cases h with
  | same _ _ _ _ hsame => simp [changed, results, handle, hsame]
  | rebuilt hnode _ _ _ hchanged hnew =>
    simp only [changed, results, handle, hchanged, ne_eq, List.singleton_inj, true_iff]
    rintro rfl
    exact hnew (World.issued_of_resolve hnode)
  | given hnode _ hbecome =>
    have hself := onlyItself_iff hbecome (World.issued_of_resolve hnode)
    rw [changed, results, handle, Bool.not_eq_true', ← Bool.not_eq_true, hself]

theorem Tells.place_eq {depth : Nat} {visit : Visit}
    (h : Tells w w' source dest visitor depth visit) : visit.place = visit.results := by
  unfold place
  split
  · rfl
  next hsame => exact (not_not.mp (h.changed_iff.not.mp hsame)).symm

/-- A visitor that lets every node stay changes nothing. -/
theorem Tells.unchanged {depth : Nat} {visit : Visit}
    (h : Tells w w' source dest visitor depth visit)
    (hstays : ∀ node handle depth, (visitor node handle depth).replacements? handle = none) :
    visit.changed = false ∧ visit.rebuilt + visit.built = 0 := by
  induction h with
  | same _ _ _ _ hsame ih =>
    refine ⟨hsame, ?_⟩
    rw [Visit.rebuilt, Visit.built, hsame, if_neg Bool.false_ne_true, Nat.add_zero, cost_eq_sum,
      List.sum_eq_zero_iff_forall_eq_nat]
    exact List.forall_mem_map.mpr fun child hchild => (ih child hchild).2
  | rebuilt _ _ _ _ hchanged _ _ ih =>
    rw [anyChanged_eq, List.any_eq_true] at hchanged
    obtain ⟨child, hchild, hchanged⟩ := hchanged
    rw [(ih child hchild).1] at hchanged
    cases hchanged
  | given _ hgives =>
    rw [hstays] at hgives
    cases hgives

/-- The results for the children are the children themselves just if nothing changed. -/
theorem results_eq_iff {depth : Nat} {visits : List Visit}
    (h : ∀ visit ∈ visits, Tells w w' source dest visitor depth visit) :
    (visits.map results = (visits.map handle).map fun child => [child]) ↔
      anyChanged visits = false := by
  rw [List.map_map, List.map_inj_left, anyChanged_eq, List.any_eq_false]
  refine forall₂_congr fun visit hvisit => ?_
  rw [(h visit hvisit).changed_iff, not_not]
  rfl

end

end Visit

namespace World

/-- The only new link is one to the source. -/
theorem LinkedTo.of_perform_link {w : World} {dest source x y : ArenaId}
    (hlink : (perform (link dest source) w).2.LinkedTo x y) : w.LinkedTo x y ∨ y = source := by
  rcases linkedTo_link_iff.mp hlink with hlink | ⟨-, -, hcall⟩
  · exact .inl hlink
  · exact .inr (Prod.mk.inj hcall).2

/-- A new link to the source shows nothing that was not seen from the source before. -/
theorem InReach.of_perform_link {w : World} {dest source b : ArenaId}
    (h : (perform (link dest source) w).2.InReach source b) : w.InReach source b := by
  induction h with
  | refl => exact .refl
  | tail _ hlink ih =>
    rcases hlink.of_perform_link with hlink | rfl
    · exact ih.tail hlink
    · exact .refl

/-- What a handle stands for from the source after a link, it stood for before. -/
theorem resolve_of_perform_link {w : World} {dest source : ArenaId} {h : Handle} {node : Node}
    (hr : (perform (link dest source) w).2.resolve source h = .ok node) :
    w.resolve source h = .ok node := by
  obtain ⟨b, hreach, hold⟩ := resolve_eq_ok_iff.mp hr
  exact resolve_eq_ok_iff.mpr ⟨b, hreach.of_perform_link, hold.of_perform_link⟩

theorem nodes_of_perform_link (w : World) (dest source a : ArenaId) :
    ((perform (link dest source) w).2.arena a).nodes = (w.arena a).nodes := by
  rcases perform_link_cases w dest source with ⟨-, hrun⟩ | ⟨-, hrun⟩
  · rw [hrun]
  · rw [hrun, arena_congr (arenas_tell ..), arena_modifyArena]
    split <;> rfl

end World

namespace Revision

section
variable {w w₁ : World} {source dest : ArenaId} {visitor : Node → Handle → Nat → Change}

/-- What replaces a node is there already, or is made. -/
theorem becomes_of_materialize (hdest : w₁.Opened dest)
    (hissued : ∀ h, w.Issued h → w₁.Issued h) {nodes : List Replacement} {n : Nat} {u v : World}
    {results : List Handle} (hu : World.Gains dest n w₁ u)
    (hrun : perform (nodes.mapM (materialize dest)) u = (.ok results, v)) :
    World.Gains dest (nodes.map Replacement.nodeCount).sum u v ∧
      List.Forall₂ (Visit.Becomes w v dest) nodes results := by
  have hone : ∀ node ∈ nodes, ∀ n u v h, World.Gains dest n w₁ u →
      perform (materialize dest node) u = (.ok h, v) →
      ∃ r : Replacement × Handle, r.1 = node ∧ r.2 = h ∧
        World.Gains dest r.1.nodeCount u v ∧ Visit.Becomes w v dest r.1 r.2 := by
    intro node _ n u v h hu hone
    refine ⟨(node, h), rfl, rfl, ?_⟩
    cases node with
    | stored handle =>
      obtain ⟨hh, rfl⟩ := Prod.mk.inj hone
      obtain rfl := Except.ok.inj hh
      exact ⟨.none u, .stored handle⟩
    | described description =>
      obtain ⟨hgains, hnew, node, -, hold⟩ :=
        makes_realize description u v h (hu.grows.opened dest hdest) hone
      refine ⟨hgains, .described (fun hbefore => hnew ?_) hold⟩
      exact (hissued h hbefore).ages hu.grows.ages
  obtain ⟨rs, rfl, rfl, hgains, hbecome⟩ :=
    World.Gains.mapM (fun _ _ _ hgrow hb => hb.grow hgrow) hone hu hrun
  refine ⟨by rw [List.map_map]; exact hgains, ?_⟩
  rw [List.forall₂_map_left_iff, List.forall₂_map_right_iff]
  exact List.forall₂_same.mpr hbecome

/-- Of a node that stays, there is a record once there are records of its children. -/
theorem tells_of_settle (hdest : w₁.Opened dest) (hissued : ∀ h, w.Issued h → w₁.Issued h)
    {depth : Nat} {h kept : Handle} {node : Node} (hnode : w.resolve source h = .ok node)
    (hstays : (visitor node h depth).replacements? h = none) {visits : List Visit}
    (hhandles : visits.map Visit.handle = node.children) {n : Nat} {u u' v : World}
    (hu : World.Gains dest n w₁ u)
    (hgains : World.Gains dest (Visit.rebuiltAll visits + Visit.builtAll visits) u u')
    (htells : ∀ visit ∈ visits, visit.Tells w u' source dest visitor (depth + 1))
    (hrun : perform (settle dest node h (visits.map Visit.results)) u' = (.ok kept, v)) :
    ∃ visit : Visit, visit.handle = h ∧ visit.results = [kept] ∧
      World.Gains dest (visit.rebuilt + visit.built) u v ∧
      visit.Tells w v source dest visitor depth := by
  have hu' := hu.trans hgains
  rw [settle, ← hhandles] at hrun
  cases hany : Visit.anyChanged visits with
  | false =>
    rw [if_pos ((Visit.results_eq_iff htells).mpr hany)] at hrun
    obtain ⟨hself, rfl⟩ := Prod.mk.inj hrun
    obtain rfl := Except.ok.inj hself
    refine ⟨.kept h visits h, rfl, rfl, ?_, .same hnode hstays hhandles htells hany⟩
    simpa [Visit.rebuilt, Visit.built, hany] using hgains
  | true =>
    have hdiffer := (Visit.results_eq_iff htells).not.mpr (by simp [hany])
    rw [if_neg hdiffer] at hrun
    obtain ⟨hmore, hnew, made, rfl, hold⟩ :=
      makes_rebuild node _ u' _ kept (hu'.grows.opened dest hdest) hrun
    have hplaces : (visits.map Visit.results).flatten = visits.flatMap Visit.place := by
      rw [List.flatMap_def]
      exact congrArg List.flatten
        (List.map_congr_left fun visit hvisit => (htells visit hvisit).place_eq.symm)
    rw [hplaces] at hold
    refine ⟨.kept h visits kept, rfl, rfl, ?_, .rebuilt hnode hstays hhandles
      (fun visit hvisit => (htells visit hvisit).grow hmore.grows) hany
      (fun hbefore => hnew ((hissued kept hbefore).ages hu'.grows.ages)) hold⟩
    have hsum := hgains.trans hmore
    rw [Visit.rebuilt, Visit.built, hany, if_pos rfl, Nat.add_right_comm]
    exact hsum

/-- A visit that succeeds has a record. Visited handles were given out before the revision began, so
they resolve to what they resolved to then; new handles are not among them. -/
theorem tells_of_visit (hdest : w₁.Opened dest) (hclosed : w₁.Closed)
    (hissued : ∀ h, w.Issued h → w₁.Issued h)
    (hback : ∀ h node, w₁.resolve source h = .ok node → w.resolve source h = .ok node)
    (bound depth : Nat) {h : Handle} (hh : w₁.Issued h) {n : Nat} {u v : World}
    {results : List Handle} (hu : World.Gains dest n w₁ u)
    (hrun : perform (visit source dest (fun n h d => pure (visitor n h d)) bound depth h) u =
      (.ok results, v)) :
    ∃ visit : Visit, visit.handle = h ∧ visit.results = results ∧
      World.Gains dest (visit.rebuilt + visit.built) u v ∧
      visit.Tells w v source dest visitor depth := by
  induction bound generalizing depth h n u v results with
  | zero => cases hrun
  | succ bound ih =>
    rw [visit_eq] at hrun
    obtain ⟨node, u₁, hlook, hrun⟩ := perform_bind_eq_ok_iff.mp hrun
    rw [resolve, perform_observe, hu.resolve_of_issued hh] at hlook
    obtain ⟨hresolve, rfl⟩ := Prod.mk.inj hlook
    have hnode := hback h node hresolve
    cases hchange : (visitor node h depth).replacements? h with
    | some nodes =>
      rw [hchange] at hrun
      obtain ⟨hgains, hbecome⟩ := becomes_of_materialize hdest hissued hu hrun
      refine ⟨.given h nodes results, rfl, rfl, ?_, .given hnode hchange hbecome⟩
      simpa [Visit.rebuilt, Visit.built] using hgains
    | none =>
      rw [hchange] at hrun
      obtain ⟨rows, u₂, hrows, hrun⟩ := perform_bind_eq_ok_iff.mp hrun
      obtain ⟨kept, u₃, hkept, hrun⟩ := perform_bind_eq_ok_iff.mp hrun
      obtain ⟨hresults, rfl⟩ := Prod.mk.inj hrun
      obtain rfl := Except.ok.inj hresults
      have hchild : ∀ child ∈ node.children, ∀ n u' v' y, World.Gains dest n w₁ u' →
          perform (visit source dest (fun n h d => pure (visitor n h d)) bound (depth + 1) child)
            u' = (.ok y, v') →
          ∃ r : Visit, r.handle = child ∧ r.results = y ∧
            World.Gains dest (r.rebuilt + r.built) u' v' ∧
            r.Tells w v' source dest visitor (depth + 1) := fun child hchild _ _ _ _ hu hrun =>
        ih (depth + 1) (World.issued_of_closed hclosed hresolve hchild) hu hrun
      obtain ⟨visits, hhandles, rfl, hgains, htells⟩ :=
        World.Gains.mapM (fun _ _ _ hgrow ht => ht.grow hgrow) hchild hu hrows
      rw [← Visit.cost_eq_sum] at hgains
      exact tells_of_settle hdest hissued hnode hchange hhandles hu hgains htells hkept

end

/-- A revision that succeeds links, visits the root, and takes its only result or makes a fragment
of the results. -/
theorem perform_revise_eq_ok {w w' : World} {source dest : ArenaId} {root h : Handle}
    {visitor : Node → Handle → Nat → Change}
    (hrun : perform (revise (m := Action) source dest root fun n h d => pure (visitor n h d)) w =
      (.ok h, w')) :
    ∃ w₁ w₂ results, perform (link dest source) w = (.ok ⟨⟩, w₁) ∧
      perform (visit (m := Action) source dest (fun n h d => pure (visitor n h d)) w₁.depthBound 0
        root) w₁ = (.ok results, w₂) ∧
      (results = [h] ∧ w' = w₂ ∨
        results.length ≠ 1 ∧ perform (allocate dest (.fragment results)) w₂ = (.ok h, w')) := by
  unfold revise at hrun
  simp only [monadLift_self] at hrun
  obtain ⟨⟨⟩, w₁, hlink, hrun⟩ := perform_bind_eq_ok_iff.mp hrun
  obtain ⟨bound, w₁', hbound, hrun⟩ := perform_bind_eq_ok_iff.mp hrun
  rw [perform_observe] at hbound
  obtain ⟨heq, rfl⟩ := Prod.mk.inj hbound
  obtain rfl := Except.ok.inj heq
  obtain ⟨results, w₂, hvisit, hrun⟩ := perform_bind_eq_ok_iff.mp hrun
  refine ⟨w₁, w₂, results, hlink, hvisit, ?_⟩
  rcases results with _ | ⟨only, _ | ⟨second, rest⟩⟩
  · exact .inr ⟨by simp, hrun⟩
  · obtain ⟨hh, rfl⟩ := Prod.mk.inj hrun
    obtain rfl := Except.ok.inj hh
    exact .inl ⟨rfl, rfl⟩
  · exact .inr ⟨by simp, hrun⟩

theorem issued_of_visit {u v : World} {source dest : ArenaId} {bound depth : Nat} {h : Handle}
    {visitor : Node → Handle → Nat → Change} {results : List Handle}
    (hrun : perform (visit source dest (fun n h d => pure (visitor n h d)) bound depth h) u =
      (.ok results, v)) : u.Issued h := by
  cases bound with
  | zero => cases hrun
  | succ bound =>
    rw [visit_eq] at hrun
    obtain ⟨node, u₁, hlook, -⟩ := perform_bind_eq_ok_iff.mp hrun
    rw [resolve, perform_observe] at hlook
    exact World.issued_of_resolve (Prod.mk.inj hlook).1

/-- Results are collected in a fragment of their own, unless there is a single one. -/
theorem gains_of_collect {w u v : World} {dest : ArenaId} (hdest : u.Opened dest)
    (hissued : ∀ g, w.Issued g → u.Issued g) {results : List Handle} {h : Handle}
    (hend : results = [h] ∧ v = u ∨
      results.length ≠ 1 ∧ perform (allocate dest (.fragment results)) u = (.ok h, v)) :
    World.Gains dest (if results.length = 1 then 0 else 1) u v ∧
      if results.length = 1 then results = [h]
      else ¬ w.Issued h ∧ v.Holds dest h (.fragment results) := by
  rcases hend with ⟨hone, rfl⟩ | ⟨hmany, hstore⟩
  · rw [hone]
    exact ⟨.none _, rfl⟩
  · rw [if_neg hmany, if_neg hmany]
    obtain ⟨hgain, hnew, node, rfl, hold⟩ := makes_allocate _ u v h hdest hstore
    exact ⟨hgain, fun hbefore => hnew (hissued h hbefore), hold⟩

/-- A revision that succeeds tells of its visits. The destination gains a node for each visited one
that stays with a change under it, the nodes of the descriptions, and a fragment unless the root
came to a single result. Where every node stays, nothing is stored. -/
theorem shares_revise {w w' : World} {source dest : ArenaId} {root h : Handle}
    {visitor : Node → Handle → Nat → Change} (hw : w.Reachable) (hdest : w.Opened dest)
    (hrun : perform (revise (m := Action) source dest root fun n h d => pure (visitor n h d)) w =
      (.ok h, w')) :
    (∃ visit : Visit, visit.handle = root ∧ visit.Tells w w' source dest visitor 0 ∧
      (w'.arena dest).size = (w.arena dest).size + visit.rebuilt + visit.built +
        (if visit.results.length = 1 then 0 else 1) ∧
      if visit.results.length = 1 then visit.results = [h]
      else ¬ w.Issued h ∧ w'.Holds dest h (.fragment visit.results)) ∧
    World.Grows w w' ∧ (∀ a, a ≠ dest → (w'.arena a).nodes = (w.arena a).nodes) ∧
    ((∀ node h depth, visitor node h depth = .keep ∨ visitor node h depth = .replace (.stored h)) →
      h = root ∧ ∀ a, (w'.arena a).nodes = (w.arena a).nodes) := by
  obtain ⟨w₁, w₂, results, hlink, hvisit, hend⟩ := perform_revise_eq_ok hrun
  obtain ⟨w₁, hlinked, hgrow, -⟩ := perform_link_reaches hdest source
  obtain rfl := (Prod.mk.inj (hlink.symm.trans hlinked)).2
  have hworld : w₁ = (perform (link dest source) w).2 := by rw [hlink]
  have hnodes : ∀ a, (w₁.arena a).nodes = (w.arena a).nodes := fun a => by
    rw [hworld, World.nodes_of_perform_link]
  have hback : ∀ g node, w₁.resolve source g = .ok node → w.resolve source g = .ok node :=
    fun _ _ hresolve => World.resolve_of_perform_link (hworld ▸ hresolve)
  have hissued : ∀ g, w.Issued g → w₁.Issued g := fun g hg => hg.ages hgrow.ages
  have hclosed : w₁.Closed := fun b g node hold child hchild => by
    have hbefore := (hworld ▸ hold).of_perform_link
    exact hissued child (hw.ordered.closed b g node hbefore child hchild)
  have hdest₁ := hgrow.opened dest hdest
  obtain ⟨visit, rfl, rfl, hgains, htells⟩ := tells_of_visit hdest₁ hclosed hissued hback _ 0
    (issued_of_visit hvisit) (.none w₁) hvisit
  obtain ⟨hgain, hresult⟩ := gains_of_collect (hgains.grows.opened dest hdest₁)
    (fun g hg => (hissued g hg).ages hgains.grows.ages) hend
  have htotal := hgains.trans hgain
  have hsize : (w₁.arena dest).size = (w.arena dest).size := congrArg Array.size (hnodes dest)
  refine ⟨⟨visit, rfl, htells.grow hgain.grows, ?_, hresult⟩, hgrow.trans htotal.grows,
    fun a ha => ?_, fun hstays => ?_⟩
  · rw [htotal.size hdest₁, hsize]
    omega
  · rw [htotal.arena_of_ne ha, hnodes]
  · obtain ⟨hsame, hcost⟩ := htells.unchanged fun node g depth => by
      rcases hstays node g depth with hkeep | hself
      · rw [hkeep]
        rfl
      · rw [hself]
        exact if_pos rfl
    have hself : visit.results = [visit.handle] :=
      not_not.mp (htells.changed_iff.not.mp (by simp [hsame]))
    have hone : visit.results.length = 1 := by rw [hself]; rfl
    rw [if_pos hone, hself] at hresult
    rw [if_pos hone, hcost] at htotal
    obtain rfl := htotal.eq_of_zero
    exact ⟨(List.singleton_inj.mp hresult).symm, hnodes⟩

/-- The text gives way to a new one and itself, which get a fragment around them. -/
theorem shares_revise_of_prepend : ∃ w w' h, w.Reachable ∧ w.Opened ⟨1⟩ ∧
    perform (revise (m := Action) ⟨0⟩ ⟨1⟩ oldText.handle fun n h d => pure (prepend n h d)) w =
      (.ok h, w') ∧
    ∃ results, results.length = 2 ∧ ¬ w.Issued h ∧ w'.Holds ⟨1⟩ h (.fragment results) := by
  have hreachable : (twoArenas.store ⟨0⟩ (.text "old")).Reachable := by
    have htwo : twoArenas.Reachable :=
      (World.reachable_empty.call (.openArena {} none)).call (.openArena {} none)
    exact htwo.store _ _ rfl (List.forall_mem_nil _)
  have hopened : (twoArenas.store ⟨0⟩ (.text "old")).Opened ⟨1⟩ := by decide
  obtain ⟨⟨visit, -, htells, -, hresult⟩, -⟩ := shares_revise hreachable hopened perform_prepend
  refine ⟨_, _, _, hreachable, hopened, perform_prepend, visit.results, ?_⟩
  cases htells with
  | same _ hstays => cases hstays
  | rebuilt _ hstays => cases hstays
  | @given _ _ _ _ results _ hgives hbecome =>
    obtain rfl := Option.some.inj hgives
    have hlength : results.length = 2 := hbecome.length_eq.symm
    rw [Visit.results, if_neg (by omega)] at hresult
    exact ⟨hlength, hresult⟩

end Revision

end MarkupArena
