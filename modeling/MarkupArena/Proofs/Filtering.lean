import MarkupArena.Proofs.Obstacles
import MarkupArena.Proofs.Pruning

/-! Filtering keeps what is valid valid. What is left of the members of an element, once fragments
are opened up, are members that stood there before, so the check of a copy never refuses them. -/
namespace MarkupArena

namespace Schema

variable {schema : Schema} {info : TagInfo}

/-- The rules of a tag tolerate what the schema permits there. -/
theorem Permits.tolerates {member : Node} (h : schema.Permits info.tagName member)
    (hinfo : schema.find? info.tagName = some info) : schema.Tolerates info member := by
  cases member with
  | rendered markup =>
    obtain ⟨hnames, htext⟩ := h
    refine ⟨hnames, fun hhas => ?_⟩
    simpa [permitsText, hinfo] using htext hhas
  | element e => exact h
  | text value => exact h
  | fragment children => exact h

/-- What is tolerated does not depend on the children it has. -/
theorem Tolerates.of_alone {node made : Node} (h : schema.Tolerates info node)
    (halone : made.alone = node.alone) : schema.Tolerates info made := by
  cases node with
  | element e =>
    obtain ⟨children, rfl⟩ := Node.element_of_alone halone
    exact h
  | fragment children =>
    obtain ⟨others, rfl⟩ := Node.fragment_of_alone halone
    exact h
  | text value =>
    cases made <;> cases halone
    exact h
  | rendered markup =>
    cases made <;> cases halone
    exact h

end Schema

namespace World

/-- Handles that an arena comes to from another, going from nodes to their children. -/
def SeenUnder (w : World) (a : ArenaId) : Handle → Handle → Prop :=
  Relation.ReflTransGen fun child h => ∃ node, w.resolve a h = .ok node ∧ child ∈ node.children

/-- An element has the rules that the schema has for its tag, and the schema permits all that an
arena sees directly in it. -/
structure ValidElement (w : World) (schema : Schema) (a : ArenaId) (e : Element) : Prop where
  known : schema.find? e.tag = some e.info
  members : ∀ member, Node.Member (fun h n => w.resolve a h = .ok n) (.fragment e.children) member →
    schema.Permits e.tag member

/-- All elements that an arena sees under a handle are valid. -/
def ValidUnder (w : World) (schema : Schema) (a : ArenaId) (root : Handle) : Prop :=
  ∀ h e, w.SeenUnder a h root → w.resolve a h = .ok (.element e) → w.ValidElement schema a e

section
variable {w : World} {a : ArenaId} {schema : Schema} {info : TagInfo} {h : Handle}
  {node member : Node}

theorem ValidUnder.child (hvalid : w.ValidUnder schema a h) (hr : w.resolve a h = .ok node)
    {child : Handle} (hchild : child ∈ node.children) : w.ValidUnder schema a child :=
  fun g e hunder hg => hvalid g e (hunder.tail ⟨node, hr, hchild⟩) hg

theorem Complete.resolves_of_seen {root : Handle} (hcomplete : w.Complete a root)
    (hseen : w.SeenUnder a h root) : ∃ node, w.resolve a h = .ok node := by
  induction hseen with
  | refl =>
    obtain ⟨tree, hstored, rfl⟩ := hcomplete
    exact ⟨tree.root, hstored.resolve⟩
  | tail _ hstep ih =>
    obtain ⟨tree, hstored, rfl⟩ := hcomplete
    obtain ⟨node, hr, hchild⟩ := hstep
    cases hstored with
    | node hresolve hhandles hchildren =>
      obtain rfl := resolve_unique hr hresolve
      rw [← hhandles] at hchild
      obtain ⟨below, hbelow, rfl⟩ := List.mem_map.mp hchild
      exact ih ⟨below, hchildren below hbelow, rfl⟩

/-- All members of what fits are tolerated. -/
theorem Fits.tolerates (hfits : w.Fits a info h) (hr : w.resolve a h = .ok node)
    (hm : Node.Member (fun h n => w.resolve a h = .ok n) node member) :
    (w.arena a).options.schema.Tolerates info member := by
  induction hfits generalizing node with
  | flat hr' hflat htolerates =>
    obtain rfl := resolve_unique hr hr'
    cases hm with
    | itself => exact htolerates
    | within => exact absurd rfl (hflat _)
  | fragment hr' _ ih =>
    obtain rfl := resolve_unique hr hr'
    cases hm with
    | itself hflat => exact absurd rfl (hflat _)
    | within hchild hname hmember => exact ih _ hchild hname hmember

/-- An element is valid if the schema knows it and its children fit. -/
theorem validElement_of_fits {e : Element} (hknown : schema.find? e.tag = some e.info)
    (hschema : (w.arena a).options.schema = schema)
    (hfits : ∀ child ∈ e.children, w.Fits a e.info child) : w.ValidElement schema a e where
  known := hknown
  members member hm := by
    cases hm with
    | itself hflat => exact absurd rfl (hflat _)
    | within hchild hname hmember =>
      have htolerates := (hfits _ hchild).tolerates hname hmember
      rw [hschema] at htolerates
      exact htolerates.permits hknown id

theorem Fits.resolves (hfits : w.Fits a info h) : ∃ node, w.resolve a h = .ok node := by
  cases hfits with
  | flat hr _ _ => exact ⟨_, hr⟩
  | fragment hr _ => exact ⟨_, hr⟩

end

end World

namespace Visit

section
variable {w w' : World} {source dest : ArenaId} {accepts : Node → Handle → Bool} {visit : Visit}

/-- What is left of a node may stand wherever the node's members may. -/
theorem Pruned.fits (h : visit.Pruned w w' source dest accepts) {info : TagInfo}
    (hinfo : (w'.arena dest).options.schema.find? info.tagName = some info)
    (hmembers : ∀ node member, w.resolve source visit.handle = .ok node →
      Node.Member (fun h n => w.resolve source h = .ok n) node member →
        (w'.arena dest).options.schema.Permits info.tagName member) :
    ∀ r ∈ visit.results, w'.Fits dest info r := by
  induction h with
  | dropped => exact List.forall_mem_nil _
  | @left h result node made children hnode _ hhandles _ hmade halone hchildren ih =>
    refine List.forall_mem_singleton.mpr ?_
    by_cases hflat : ∀ others, node ≠ .fragment others
    · have htolerates := (hmembers node node hnode (.itself hflat)).tolerates hinfo
      refine .flat hmade (fun others hmade => ?_) (htolerates.of_alone halone)
      rw [hmade] at halone
      obtain ⟨others', rfl⟩ := Node.fragment_of_alone halone.symm
      exact hflat others' rfl
    · push Not at hflat
      obtain ⟨others, rfl⟩ := hflat
      obtain ⟨left, rfl⟩ := Node.fragment_of_alone halone
      refine .fragment hmade fun r hr => ?_
      rw [show left = children.flatMap results from hchildren] at hr
      obtain ⟨child, hchild, hr⟩ := List.mem_flatMap.mp hr
      have hmem := List.mem_map_of_mem (f := handle) hchild
      rw [hhandles] at hmem
      exact ih child hchild (fun node member hnode' hm =>
        hmembers _ member hnode (.within hmem hnode' hm)) r hr

/-- What is left of the children of a valid element may stand in a copy of it. -/
theorem fits_of_valid {visits : List Visit} {e : Element}
    (hpruned : ∀ child ∈ visits, child.Pruned w w' source dest accepts)
    (hhandles : visits.map handle = e.children)
    (hvalid : w.ValidElement (w'.arena dest).options.schema source e) :
    ∀ r ∈ visits.flatMap results, w'.Fits dest e.info r := by
  intro r hr
  obtain ⟨child, hchild, hr⟩ := List.mem_flatMap.mp hr
  refine (hpruned child hchild).fits hvalid.known (fun node member hnode hm => ?_) r hr
  have hmem := List.mem_map_of_mem (f := handle) hchild
  rw [hhandles] at hmem
  exact hvalid.members member (.within hmem hnode hm)

theorem Pruned.resolves (h : visit.Pruned w w' source dest accepts) :
    ∀ r ∈ visit.results, ∃ node, w'.resolve dest r = .ok node := by
  cases h with
  | dropped => exact List.forall_mem_nil _
  | left _ _ _ _ hmade _ _ => exact List.forall_mem_singleton.mpr ⟨_, hmade⟩

/-- The elements that are left are valid if those that were there are. -/
theorem Pruned.valid (h : visit.Pruned w w' source dest accepts)
    (hvalid : w.ValidUnder (w'.arena dest).options.schema source visit.handle) :
    ∀ r ∈ visit.results, w'.ValidUnder (w'.arena dest).options.schema dest r := by
  induction h with
  | dropped => exact List.forall_mem_nil _
  | @left h result node made children hnode _ hhandles hpruned hmade halone hchildren ih =>
    refine List.forall_mem_singleton.mpr fun g e hunder hg => ?_
    have hbelow : ∀ child ∈ children,
        w.ValidUnder (w'.arena dest).options.schema source child.handle := fun child hchild =>
      hvalid.child hnode (hhandles ▸ List.mem_map_of_mem hchild)
    rcases hunder.cases_tail with rfl | ⟨c, hunder, hc⟩
    · obtain rfl := World.resolve_unique hmade hg
      obtain ⟨others, rfl⟩ := Node.element_of_alone halone.symm
      have hbefore := hvalid h _ .refl hnode
      refine World.validElement_of_fits hbefore.known rfl fun r hr => ?_
      rw [show e.children = children.flatMap results from hchildren] at hr
      exact fits_of_valid hpruned hhandles hbefore r hr
    · obtain ⟨found, hfound, hc⟩ := hc
      obtain rfl := World.resolve_unique hmade hfound
      rw [hchildren] at hc
      obtain ⟨child, hchild, hc⟩ := List.mem_flatMap.mp hc
      exact ih child hchild (hbelow child hchild) c hc g e hunder hg

end

end Visit

namespace Revision

section
variable {w w₁ : World} {source dest : ArenaId}

/-- A revision fails in the visit to the root or as the fragment of the results is stored. -/
theorem perform_revise_eq_error (hdest : w.Opened dest) {w' : World} {root : Handle}
    {visitor : Node → Handle → Nat → Change} {f : Failure}
    (hrun : perform (revise (m := Action) source dest root fun n h d => pure (visitor n h d)) w =
      (.error f, w')) :
    ∃ w₁, perform (link dest source) w = (.ok ⟨⟩, w₁) ∧
      (perform (visit (m := Action) source dest (fun n h d => pure (visitor n h d)) w₁.depthBound 0
          root) w₁ = (.error f, w') ∨
        ∃ results w₂, perform (visit (m := Action) source dest
            (fun n h d => pure (visitor n h d)) w₁.depthBound 0 root) w₁ = (.ok results, w₂) ∧
          results.length ≠ 1 ∧
          perform (allocate dest (.fragment results)) w₂ = (.error f, w')) := by
  obtain ⟨w₁, hlink, -, -⟩ := perform_link_reaches hdest source
  refine ⟨w₁, hlink, ?_⟩
  unfold revise at hrun
  simp only [monadLift_self] at hrun
  rw [perform_bind, hlink] at hrun
  dsimp only at hrun
  rw [perform_bind, perform_observe] at hrun
  rcases perform_bind_eq_error_iff.mp hrun with hvisit | ⟨results, w₂, hvisit, hend⟩
  · exact .inl hvisit
  · refine .inr ⟨results, w₂, hvisit, ?_⟩
    rcases results with _ | ⟨only, _ | ⟨second, rest⟩⟩
    · exact ⟨by simp, hend⟩
    · cases hend
    · exact ⟨by simp, hend⟩

/-- A node is settled if its new children fit, for there is nothing else to refuse. -/
theorem settle_succeeds {u : World} (hu : u.Ordered)
    (hlimit : (u.arena dest).options.maxNodes = none) {node : Node} {h : Handle}
    {results : List (List Handle)}
    (hresolves : ∀ r ∈ results.flatten, ∃ found, u.resolve dest r = .ok found)
    (hfits : ∀ e, node = .element e → ∀ r ∈ results.flatten, u.Fits dest e.info r) :
    ∃ kept v, perform (settle dest node h results) u = (.ok kept, v) := by
  have hroom : (u.arena dest).exceededLimit? = none := by
    rw [Arena.exceededLimit?, hlimit]
    rfl
  unfold settle
  split
  · exact ⟨h, u, rfl⟩
  · cases node with
    | element e =>
      have hchecks : u.checkParts dest e.info 0 (results.flatten.map Part.node) = .ok () :=
        hu.checkParts_eq_ok_iff.mpr (List.forall_mem_map.mpr (hfits e rfl))
      have hcopy : perform (Build.withChildren dest e results.flatten) u =
          perform (allocate dest (.element { e with children := results.flatten })) u := by
        rw [Build.perform_withChildren, hchecks, ite_self]
      exact ⟨_, _, hcopy.trans (allocate_of_resolves hroom hresolves)⟩
    | _ => exact ⟨_, _, allocate_of_resolves hroom hresolves⟩

/-- A valid node with what is left of its children is settled. -/
theorem settle_of_pruned {u : World} (hu : u.Ordered)
    (hlimit : (u.arena dest).options.maxNodes = none) {accepts : Node → Handle → Bool}
    {visits : List Visit} (hpruned : ∀ child ∈ visits, child.Pruned w u source dest accepts)
    {node : Node} {h : Handle} (hhandles : visits.map Visit.handle = node.children)
    (hnode : w.resolve source h = .ok node)
    (hvalid : w.ValidUnder (u.arena dest).options.schema source h) :
    ∃ kept v, perform (settle dest node h (visits.map Visit.results)) u = (.ok kept, v) := by
  apply settle_succeeds hu hlimit
  · intro r hr
    rw [← List.flatMap_def] at hr
    obtain ⟨child, hchild, hr⟩ := List.mem_flatMap.mp hr
    exact (hpruned child hchild).resolves r hr
  · rintro e rfl
    rw [← List.flatMap_def]
    exact Visit.fits_of_valid hpruned hhandles (hvalid h e .refl hnode)

/-- Where visits in a row fail, one of them does, with what was stored for those before it. -/
theorem visit_fails_of_mapM (hlinked : w.Linked w₁ source dest)
    {visitor : Node → Handle → Nat → Change} {bound depth : Nat} {handles : List Handle}
    (hissued : ∀ h ∈ handles, w₁.Issued h) {n : Nat} {u v : World} {f : Failure}
    (hu : World.Gains dest n w₁ u)
    (hrun : perform (handles.mapM (visit (m := Action) source dest
      (fun n h d => pure (visitor n h d)) bound depth)) u = (.error f, v)) :
    ∃ h ∈ handles, ∃ m u', World.Gains dest m w₁ u' ∧
      perform (visit (m := Action) source dest (fun n h d => pure (visitor n h d)) bound depth h)
        u' = (.error f, v) := by
  refine World.Gains.mapM_error (fun h hh n u' v' y hu' hrun => ?_) hu hrun
  obtain ⟨_, -, -, hgains, -⟩ := tells_of_linked hlinked (hissued h hh) hu' hrun
  exact ⟨_, hgains⟩

/-- Where visits in a row succeed, each has a record of what it left. -/
theorem pruned_of_mapM (hlinked : w.Linked w₁ source dest) {accepts : Node → Handle → Bool}
    {bound depth : Nat} {handles : List Handle} (hissued : ∀ h ∈ handles, w₁.Issued h) {n : Nat}
    {u v : World} {rows : List (List Handle)} (hu : World.Gains dest n w₁ u)
    (hrun : perform (handles.mapM (visit (m := Action) source dest
      (fun n h d => pure (dropping accepts n h d)) bound depth)) u = (.ok rows, v)) :
    ∃ visits : List Visit, visits.map Visit.handle = handles ∧ visits.map Visit.results = rows ∧
      (∃ m, World.Gains dest m w₁ v) ∧
      ∀ child ∈ visits, child.Pruned w v source dest accepts := by
  obtain ⟨visits, hhandles, hrows, hgains, htells⟩ :=
    World.Gains.mapM
      (fun u _ (r : Visit) hgrow (ht : r.Tells w u source dest (dropping accepts) depth) =>
        ht.grow hgrow)
      (fun h hh _ _ _ _ hu' hrun => tells_of_linked hlinked (hissued h hh) hu' hrun) hu hrun
  have hgains := hu.trans hgains
  refine ⟨visits, hhandles, hrows, ⟨_, hgains⟩, fun child hchild => ?_⟩
  exact Visit.pruned_of_tells (hlinked.later.grows.trans hgains.grows)
    (hlinked.reach.grow hgains.grows) (htells child hchild)

/-- A visit to what is valid fails for nothing but a handle that does not resolve. -/
theorem unresolved_of_visit (hlinked : w.Linked w₁ source dest)
    (hlimit : (w.arena dest).options.maxNodes = none) {accepts : Node → Handle → Bool}
    {rank : Handle → Nat} (hrank : ∀ child h, w₁.Under child h → rank child < rank h)
    {bound depth : Nat} {h : Handle} (hfuel : rank h < bound) {n : Nat} {u v : World} {f : Failure}
    (hu : World.Gains dest n w₁ u)
    (hheld : ∀ node, u.resolve source h = .ok node → w₁.resolve source h = .ok node)
    (hvalid : w.ValidUnder (w.arena dest).options.schema source h)
    (hrun : perform (visit (m := Action) source dest
      (fun node h depth => pure (dropping accepts node h depth)) bound depth h) u = (.error f, v)) :
    ∃ g fault b, f = .invalidHandle fault g b ∧ w.SeenUnder source g h ∧
      ∀ node, w.resolve source g ≠ .ok node := by
  induction bound generalizing depth h n u v with
  | zero => cases hfuel
  | succ bound ih =>
    rw [visit_eq] at hrun
    rcases perform_bind_eq_error_iff.mp hrun with hlook | ⟨node, u₁, hlook, hrun⟩
    · rw [resolve, perform_observe] at hlook
      obtain ⟨hresolve, -⟩ := Prod.mk.inj hlook
      obtain ⟨fault, b, rfl⟩ := World.resolve_eq_error hresolve
      refine ⟨h, fault, b, rfl, .refl, fun node hnode => ?_⟩
      rw [World.resolve_grow (hlinked.later.grows.trans hu.grows) hnode] at hresolve
      cases hresolve
    · rw [resolve, perform_observe] at hlook
      obtain ⟨hresolve, rfl⟩ := Prod.mk.inj hlook
      have hnode₁ := hheld node hresolve
      have hnode := hlinked.back h node hnode₁
      rw [replacements?_dropping] at hrun
      cases ha : accepts node h with
      | false =>
        rw [ha] at hrun
        cases hrun
      | true =>
        rw [ha] at hrun
        have hissued : ∀ child ∈ node.children, w₁.Issued child := fun child hchild =>
          World.issued_of_closed hlinked.ordered.closed hnode₁ hchild
        rcases perform_bind_eq_error_iff.mp hrun with hrows | ⟨rows, u₂, hrows, hrun⟩
        · obtain ⟨child, hchild, m, u', hu', hfails⟩ :=
            visit_fails_of_mapM hlinked hissued hu hrows
          obtain ⟨g, fault, b, hf, hseen, hnone⟩ := ih
            (World.rank_child_lt hrank hnode₁ hchild hfuel) hu'
            (fun n hn => hu'.resolve_of_issued (hissued child hchild) ▸ hn)
            (hvalid.child hnode hchild) hfails
          exact ⟨g, fault, b, hf, hseen.tail ⟨node, hnode, hchild⟩, hnone⟩
        · obtain ⟨visits, hhandles, rfl, ⟨m, hgains⟩, hpruned⟩ :=
            pruned_of_mapM hlinked hissued hu hrows
          have hoptions : (u₂.arena dest).options = (w.arena dest).options :=
            (hgains.grows.options hlinked.opened).trans hlinked.options
          obtain ⟨kept, u₃, hkept⟩ := settle_of_pruned
            (hgains.extends.evolves.ordered hlinked.ordered) (hoptions ▸ hlimit) hpruned hhandles
            hnode (hoptions ▸ hvalid)
          rcases perform_bind_eq_error_iff.mp hrun with hsettle | ⟨_, _, -, hlast⟩
          · rw [hkept] at hsettle
            cases hsettle
          · cases hlast

end

end Revision

namespace World

/-- Filtering a valid tree leaves a valid tree: whatever the test drops, the arena's schema refuses
nothing. A filter fails only for a handle in the tree that does not resolve, so never if the tree is
all there. -/
theorem filter_keeps_valid {w w' : World} (hw : w.Reachable) {source dest : ArenaId}
    (hdest : w.Opened dest) (hlimit : (w.arena dest).options.maxNodes = none) {root : Handle}
    (hvalid : w.ValidUnder (w.arena dest).options.schema source root)
    (accepts : Node → Handle → Bool) {outcome : Except Failure Handle}
    (hrun : perform (Revision.filterNodes (m := Action) source dest root fun node h =>
      pure (accepts node h)) w = (outcome, w')) :
    (∀ f, outcome = .error f → ∃ g fault b, f = .invalidHandle fault g b ∧
      w.SeenUnder source g root ∧ ∀ node, w.resolve source g ≠ .ok node) ∧
    (∀ r, outcome = .ok r → w'.ValidUnder (w.arena dest).options.schema dest r) ∧
    (w.Complete source root → ∃ r, outcome = .ok r) := by
  have hfails : ∀ f, outcome = .error f → ∃ g fault b, f = .invalidHandle fault g b ∧
      w.SeenUnder source g root ∧ ∀ node, w.resolve source g ≠ .ok node := by
    rintro f rfl
    obtain ⟨w₁, hlink, hrun⟩ := Revision.perform_revise_eq_error hdest
      ((Revision.perform_filterNodes w root accepts).symm.trans hrun)
    have hlinked := hw.ordered.linked hdest hlink
    rcases hrun with hvisit | ⟨results, w₂, hvisit, hmany, hstore⟩
    · obtain ⟨rank, hrank, hbound⟩ := hlinked.ordered.exists_rank_lt
      exact Revision.unresolved_of_visit hlinked hlimit hrank (hbound root) (.none w₁)
        (fun _ => id) hvalid hvisit
    · obtain ⟨visit, -, rfl, hgains, htells⟩ := Revision.tells_of_linked hlinked
        (Revision.issued_of_visit hvisit) (.none w₁) hvisit
      have hpruned := Visit.pruned_of_tells (hlinked.later.grows.trans hgains.grows)
        (hlinked.reach.grow hgains.grows) htells
      have hroom : (w₂.arena dest).exceededLimit? = none := by
        rw [Arena.exceededLimit?, hgains.grows.options hlinked.opened, hlinked.options, hlimit]
        rfl
      have hmade : perform (allocate dest (.fragment visit.results)) w₂ = _ :=
        allocate_of_resolves hroom hpruned.resolves
      cases (Prod.mk.inj (hmade.symm.trans hstore)).1
  refine ⟨hfails, ?_, fun hcomplete => ?_⟩
  · rintro r rfl
    obtain ⟨hextends, visit, rfl, hpruned, hresult⟩ :=
      Revision.pruned_of_filterNodes hw.ordered hdest hrun
    have hoptions : (w'.arena dest).options = (w.arena dest).options :=
      hextends.grows.options hdest
    rcases hresult with hone | ⟨-, hempty⟩
    · have hleft := hpruned.valid (hoptions ▸ hvalid) r (hone ▸ List.mem_singleton.mpr rfl)
      rwa [hoptions] at hleft
    · intro g e hseen hg
      rcases hseen.cases_tail with rfl | ⟨c, -, found, hfound, hc⟩
      · cases resolve_unique hempty.resolve hg
      · obtain rfl := resolve_unique hempty.resolve hfound
        cases hc
  · cases outcome with
    | ok r => exact ⟨r, rfl⟩
    | error f =>
      obtain ⟨g, -, -, -, hseen, hnone⟩ := hfails f rfl
      obtain ⟨node, hnode⟩ := hcomplete.resolves_of_seen hseen
      exact absurd hnode (hnone node)

end World

/-- The paragraph and the text in it are all there is to see under it. -/
theorem validUnder_paragraph :
    (besideParagraph prose).ValidUnder prose ⟨0⟩ paragraphTree.handle := by
  have hline : (besideParagraph prose).resolve ⟨0⟩ lineTree.handle = .ok (.text "line") :=
    World.Holds.resolve ⟨0, 0, rfl, rfl⟩
  have hparagraph := (stored_paragraphTree prose).resolve
  intro h e hseen he
  rcases hseen.cases_tail with rfl | ⟨child, hseen, node, hnode, hchild⟩
  · obtain rfl := Node.element.inj (World.resolve_unique hparagraph he)
    refine ⟨rfl, fun member hm => ?_⟩
    cases hm with
    | itself hflat => exact absurd rfl (hflat _)
    | within hchild hname hmember =>
      obtain rfl := List.mem_singleton.mp hchild
      obtain rfl := World.resolve_unique hline hname
      cases hmember
      exact rfl
  · obtain rfl := World.resolve_unique hparagraph hnode
    obtain rfl := List.mem_singleton.mp hchild
    rcases hseen.cases_tail with rfl | ⟨below, -, node, hnode, hbelow⟩
    · cases World.resolve_unique hline he
    · obtain rfl := World.resolve_unique hline hnode
      cases hbelow

theorem filter_keeps_valid_of_paragraph : (besideParagraph prose).Reachable ∧
    (besideParagraph prose).Opened ⟨1⟩ ∧
    ((besideParagraph prose).arena ⟨1⟩).options.maxNodes = none ∧
    (besideParagraph prose).ValidUnder prose ⟨0⟩ paragraphTree.handle ∧
    (besideParagraph prose).Complete ⟨0⟩ paragraphTree.handle ∧
    (afterDrop prose).ValidUnder prose ⟨1⟩ (ArenaId.handle ⟨1⟩ 0 0) := by
  have hopened : (besideParagraph prose).Opened ⟨1⟩ := Nat.lt_succ_self 1
  obtain ⟨-, hleft, -⟩ := World.filter_keeps_valid (reachable_besideParagraph prose) hopened rfl
    validUnder_paragraph (fun node _ => isNoText node.alone) (perform_filter_paragraph prose)
  exact ⟨reachable_besideParagraph prose, hopened, rfl, validUnder_paragraph,
    ⟨paragraphTree, stored_paragraphTree prose, rfl⟩, hleft _ rfl⟩

end MarkupArena
