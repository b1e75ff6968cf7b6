import MarkupArena.Proofs.Ending
import MarkupArena.Proofs.Rewriting

/-! The graph of handles and children has no cycles, in no world that clients can bring about. So
every traversal ends, and so does every revision whose visitor ends, whatever the visitor does to
the world meanwhile. -/
namespace MarkupArena

variable {σ α : Type}

/-- Work that, begun in a world or after it, never uses up a bound for the depth. -/
abbrev EndsFrom (w : World) (work : Action α) : Prop :=
  FailsOnly w.Evolves (· ≠ .tooDeep) work

/-- The same of work with a state of its own. -/
abbrev SessionEndsFrom (w : World) (Own : σ → Prop) (work : Session σ α) : Prop :=
  FailsOnly (fun s : World × σ => w.Evolves s.1 ∧ Own s.2) (· ≠ .tooDeep) work

section
variable {w : World}

theorem stands_evolves (w : World) : Stands w.Evolves (fun _ => True) :=
  stands_of_growth (fun _ _ _ _ _ _ => True.intro) fun _ _ h hu => hu.tail (.growth h)

theorem EndsFrom.lift {Own : σ → Prop} {act : Action α} (h : EndsFrom w act) :
    SessionEndsFrom w Own (monadLift act : Session σ α) :=
  fun s hs f hf => h s.1 hs.1 f hf

theorem endsFrom_resolve (a : ArenaId) (h : Handle) : EndsFrom w (resolve a h) :=
  failsOnly_observe fun _ _ => World.ends_resolve h

theorem endsFrom_allocate (a : ArenaId) (node : Node) : EndsFrom w (allocate a node) := by
  intro v _ f hf
  rw [perform_allocate] at hf
  split at hf
  · exact Except.error.inj hf ▸ nofun
  · split at hf
    · cases hf
    next hall =>
      obtain rfl := Except.error.inj hf
      obtain ⟨child, -, hchild⟩ := forM_eq_error hall
      cases hr : v.resolve a child with
      | error f' =>
        rw [hr] at hchild
        exact Except.error.inj hchild ▸ World.ends_resolve child f' hr
      | ok n =>
        rw [hr] at hchild
        cases hchild

theorem endsFrom_store (a : ArenaId) (part : Part) : EndsFrom w (Build.store a part) := by
  cases part with
  | text value => exact endsFrom_allocate a _
  | node h => exact FailsOnly.pure h

theorem endsFrom_storeAll (a : ArenaId) (parts : List Part) :
    EndsFrom w (parts.mapM (Build.store a)) := by
  refine FailsOnly.mapM (fun part _ => endsFrom_store a part) fun part _ => ?_
  cases part with
  | text value => exact (stands_evolves w).text a value
  | node h => exact Invariant.pure h

/-- Parts are stored and then a node over them, an element or a fragment. -/
theorem endsFrom_storeOver (a : ArenaId) (parts : List Part) (node : List Handle → Node) :
    EndsFrom w (do
      let handles ← parts.mapM (Build.store a)
      allocate a (node handles)) :=
  (endsFrom_storeAll a parts).bind (Build.invariant_storeAll ((stands_evolves w).text a) parts)
    fun handles _ => endsFrom_allocate a (node handles)

variable (hw : w.Ordered)
include hw

theorem endsFrom_elementAt (a : ArenaId) (site : Option CallSite) (tag : String)
    (input : AttributeInput) (children : List Child) :
    EndsFrom w (Build.elementAt a site tag input children) := by
  intro v hv f hf
  rw [Build.perform_elementAt] at hf
  split at hf
  next info given _ =>
    have hannounce := Build.growth_announce v a site tag given
    exact endsFrom_storeOver a _ _ _ (hv.tail (.growth hannounce)) f hf
  next f' haccept =>
    obtain rfl := Except.error.inj hf
    exact (hv.ordered hw).ends_accept tag input _ f' haccept

theorem endsFrom_withChildren (a : ArenaId) (e : Element) (children : List Handle) :
    EndsFrom w (Build.withChildren a e children) := by
  intro v hv f hf
  rw [Build.perform_withChildren] at hf
  split at hf
  next => exact endsFrom_allocate a _ v hv f hf
  next f' hchecks =>
    obtain rfl := Except.error.inj hf
    split at hchecks
    · exact (hv.ordered hw).ends_checkParts e.info 0 _ f' hchecks
    · cases hchecks

theorem endsFrom_materialize (dest : ArenaId) (replacement : Replacement) :
    EndsFrom w (Revision.materialize dest replacement) := by
  cases replacement with
  | stored handle => exact FailsOnly.pure handle
  | described description =>
    cases description with
    | element tag input children => exact endsFrom_elementAt hw dest none tag input [children]
    | text value => exact endsFrom_allocate dest _
    | fragment children => exact endsFrom_storeOver dest _ Node.fragment
    | rendered markup => exact endsFrom_allocate dest _

theorem endsFrom_settle (dest : ArenaId) (node : Node) (h : Handle)
    (results : List (List Handle)) : EndsFrom w (Revision.settle dest node h results) := by
  unfold Revision.settle
  split
  · exact FailsOnly.pure h
  · cases node with
    | element e => exact endsFrom_withChildren hw dest e _
    | text value => exact endsFrom_allocate dest _
    | fragment children => exact endsFrom_allocate dest _
    | rendered markup => exact endsFrom_allocate dest _

end

namespace World

/-- A handle that was given out goes on to have children of lower rank only. -/
theorem under_of_issued {w v : World} (hv : w.Evolves v) {a : ArenaId} {h : Handle} {node : Node}
    (hclosed : w.Closed) (hissued : w.Issued h) (hr : v.resolve a h = .ok node) :
    ∀ child ∈ node.children, w.Under child h ∧ w.Issued child := by
  obtain ⟨b, -, hold⟩ := resolve_eq_ok_iff.mp hr
  have hbefore : w.Holds b h node := hold.of_issued hv.ages hissued
  exact fun child hchild =>
    ⟨⟨b, node, hbefore.resolve, hchild⟩, hclosed b h node hbefore child hchild⟩

end World

namespace Revision

section
variable {w : World} {Own : σ → Prop} {source dest : ArenaId} {visitor : Visitor (Session σ)}
  (hw : w.Ordered)
  (hclient : ∀ node h depth, Client Operation (fun _ => True) Own (visitor node h depth))
  (hvisitor : ∀ node h depth, SessionEndsFrom w Own (visitor node h depth))
include hw hclient hvisitor

/-- A visit has as many levels to go down as there are ranks below a handle, also where the visitor
changes the world on the way. -/
theorem endsFrom_visit {rank : Handle → Nat}
    (hrank : ∀ child h, w.Under child h → rank child < rank h) {bound : Nat} {h : Handle}
    (hissued : w.Issued h) (hbound : rank h < bound) (depth : Nat) :
    SessionEndsFrom w Own (visit source dest visitor bound depth h) := by
  have hinv : ∀ u v, World.Step u v → w.Evolves u → w.Evolves v := fun u v hstep hu =>
    hu.tail hstep
  have hs := stands_evolves w
  have hkeeps : ∀ node h depth, Invariant (fun s : World × σ => w.Evolves s.1 ∧ Own s.2)
      (visitor node h depth) := fun node h depth =>
    (hclient node h depth).invariant (fun a => (hs.at a).revision) fun hop => hop.invariant hinv
  induction bound generalizing h depth with
  | zero => cases hbound
  | succ bound ih =>
    unfold visit
    have hlook : Keeps w.Evolves
        (fun node => ∀ child ∈ node.children, w.Under child h ∧ w.Issued child)
        (resolve source h) :=
      keeps_observe fun v hv node => World.under_of_issued hv hw.closed hissued
    refine (endsFrom_resolve source h).lift.bind hlook.lift fun node hnode => ?_
    have hchildren : ∀ child ∈ node.children,
        SessionEndsFrom w Own (visit source dest visitor bound (depth + 1) child) :=
      fun child hchild => ih (hnode child hchild).2
        ((hrank child h (hnode child hchild).1).trans_le (Nat.le_of_lt_succ hbound)) (depth + 1)
    have hdescend : SessionEndsFrom w Own (do
        let results ← node.children.mapM (visit source dest visitor bound (depth + 1))
        return [← monadLift (settle dest node h results)] : Session σ (List Handle)) := by
      have hvisits : ∀ child ∈ node.children,
          Invariant (fun s : World × σ => w.Evolves s.1 ∧ Own s.2)
            (visit source dest visitor bound (depth + 1) child) := fun child _ =>
        invariant_visit (fun a => (hs.at a).revision) (fun node h depth _ => hkeeps node h depth)
          bound (depth + 1) child
      refine (FailsOnly.mapM hchildren hvisits).bind (Invariant.mapM hvisits) fun results _ => ?_
      have hsettle : Invariant w.Evolves (settle dest node h results) :=
        (hs.at dest).settle h results fun _ _ => True.intro
      exact (endsFrom_settle hw dest node h results).lift.bind hsettle.lift fun _ _ =>
        FailsOnly.pure _
    refine (hvisitor node h depth).bind (hkeeps node h depth) fun change _ => ?_
    cases change with
    | keep => exact hdescend
    | replace replacement =>
      cases replacement with
      | stored handle =>
        dsimp only
        split
        · exact hdescend
        · exact FailsOnly.pure _
      | described description =>
        exact (endsFrom_materialize hw dest (.described description)).lift.bind
          ((hs.at dest).materialize _).lift fun _ _ => FailsOnly.pure _
    | remove => exact FailsOnly.pure _
    | splice nodes =>
      exact FailsOnly.mapM (fun node _ => (endsFrom_materialize hw dest node).lift)
        fun node _ => ((hs.at dest).materialize node).lift

/-- The levels that a world allows for are enough for every root, given out or made up. -/
theorem ends_visit (root : Handle) {v : World} {own : σ} (hv : w.Evolves v) (hown : Own own) :
    Ends (perform (visit source dest visitor v.depthBound 0 root) (v, own)).1 := by
  cases hroot : v.resolve source root with
  | error f =>
    unfold World.depthBound visit
    rw [perform_bind, perform_lift, resolve, perform_observe, hroot]
    exact ends_error (World.ends_resolve root f hroot)
  | ok node =>
    have hordered := hv.ordered hw
    have hlater : ∀ node h depth, SessionEndsFrom v Own (visitor node h depth) :=
      fun node h depth s hs => hvisitor node h depth s ⟨hv.trans hs.1, hs.2⟩
    obtain ⟨rank, hrank, hbound⟩ := hordered.exists_rank_lt
    exact endsFrom_visit hordered hclient hlater hrank (World.issued_of_resolve hroot)
      (hbound root) 0 (v, own) ⟨.refl, hown⟩

theorem endsFrom_revise (root : Handle) :
    SessionEndsFrom w Own (revise source dest root visitor) := by
  unfold revise
  refine FailsOnly.bind (fun s _ f hf => by cases hf)
    (((stands_evolves w).at dest).link_to source).lift fun _ _ => ?_
  rintro ⟨v, own⟩ ⟨hv, hown⟩ f hf
  have hvisit : Ends (perform (visit source dest visitor v.depthBound 0 root) (v, own)).1 :=
    ends_visit hw hclient hvisitor root hv hown
  rw [perform_bind, perform_lift, perform_observe] at hf
  dsimp only at hf
  rw [perform_bind] at hf
  rcases hrun : perform (visit source dest visitor v.depthBound 0 root) (v, own) with
    ⟨f' | results, u, own'⟩
  · rw [hrun] at hf hvisit
    obtain rfl := Except.error.inj hf
    exact hvisit f' rfl
  · rw [hrun] at hf
    dsimp only at hf
    split at hf
    · cases hf
    · exact (endsFrom_allocate dest _ : EndsFrom u _) u .refl f hf

end

end Revision

namespace World

/-- In whatever worlds clients bring about, going from handle to child ends, since a child that
still resolves was stored before its parent; and so all that goes over a tree ends. -/
theorem acyclic {w : World} (hw : w.Reachable) :
    WellFounded w.Under ∧
    (∀ a h node, w.resolve a h = .ok node → ∃ (u : World) (b : ArenaId),
      Evolves {} u ∧ u.Stores b node h w) ∧
    (∀ (u : World) b h node, u.Stores b node h w → (∀ c n, u.resolve c h ≠ .ok n) ∧
      ∀ child ∈ node.children, ∀ c n, w.resolve c child = .ok n →
        u.resolve b child = .ok n ∧ (child.arena = h.arena → child.Precedes h)) ∧
    (∀ a h, (∀ withDoctype, Ends (w.render a h withDoctype)) ∧ Ends (w.outline a h) ∧
      Ends (w.walk a h) ∧ (∀ limit, Ends (Cursor.take w a limit (Cursor.start w h))) ∧
      Ends (w.preserialize a h)) ∧
    ∀ (σ : Type) (source dest : ArenaId) (root : Handle)
      (visitor : Revision.Visitor (Session σ)),
      (∀ node h depth,
        Client Operation (fun _ => True) (fun _ => True) (visitor node h depth) ∧
        ∀ v own, w.Evolves v → Ends (perform (visitor node h depth) (v, own)).1) →
      ∀ own, Ends (perform (Revision.revise source dest root visitor) (w, own)).1 := by
  have hordered := hw.ordered
  refine ⟨hordered.wellFounded_under, ?_, ?_, ?_, ?_⟩
  · intro a h node hr
    obtain ⟨b, -, hold⟩ := resolve_eq_ok_iff.mp hr
    rcases (Leads.evolves hw).exists_stores hold with hnone | hstores
    · exact absurd hnone.opened (Nat.not_lt_zero _)
    · obtain ⟨u, hu, hs⟩ := hstores
      exact ⟨u, b, hu, hs⟩
  · intro u b h node hs
    exact ⟨hs.not_resolve, fun child hchild c n hr =>
      ⟨hs.resolve_child hchild hr, hs.precedes hchild hr⟩⟩
  · intro a h
    refine ⟨hordered.ends_render h, hordered.ends_outline h, hordered.ends_walk h, ?_,
      hordered.ends_preserialize h⟩
    exact hordered.ends_take h
  · intro σ source dest root visitor hvisitor own
    exact Revision.endsFrom_revise hordered (fun node h depth => (hvisitor node h depth).1)
      (fun node h depth s hs => (hvisitor node h depth).2 s.1 s.2 hs.1) root (w, own)
      ⟨.refl, True.intro⟩

end World

/-- Two arenas that see one text, and a revision that puts another before it. -/
theorem acyclic_of_linkedText : linkedText.Reachable ∧ WellFounded linkedText.Under ∧
    (∃ u b, World.Evolves {} u ∧ u.Stores b (.text "old") oldText.handle linkedText) ∧
    Ends (linkedText.walk ⟨1⟩ oldText.handle) ∧
    Ends (perform (Revision.revise (m := Session Unit) ⟨0⟩ ⟨1⟩ oldText.handle
      fun node h depth => pure (Revision.prepend node h depth)) (linkedText, ())).1 := by
  obtain ⟨hunder, hstores, -, hreaders, hrevise⟩ := World.acyclic reachable_linkedText
  have hold : linkedText.resolve ⟨0⟩ oldText.handle = .ok (.text "old") :=
    World.Holds.resolve ⟨0, 0, rfl, rfl⟩
  obtain ⟨-, -, hwalk, -⟩ := hreaders ⟨1⟩ oldText.handle
  refine ⟨reachable_linkedText, hunder, hstores _ _ _ hold, hwalk, hrevise Unit _ _ _ _ ?_ ()⟩
  exact fun node h depth => ⟨.done _, fun v own _ => ends_ok _⟩

end MarkupArena
