import MarkupArena.Proofs.SoundMarkup
import MarkupArena.Proofs.StorageOrder

/-! What an arena that validates holds after a revision into it. Elements that are made there are
checked in full. A copy keeps the tag and the attributes of its original, which may have been made
against another schema; only its children are checked again. -/
namespace MarkupArena

variable {σ : Type}

namespace Schema

/-- A schema would take an element for its tag and its attributes: the tag is known, with text
wherever the element's own rules allow it. -/
structure Accepts (schema : Schema) (e : Element) : Prop where
  known : ∃ info, schema.find? e.tag = some info ∧ (e.info.allowsText → info.allowsText)
  accepted : ∀ given ∈ e.attributes, schema.AdmitsAttribute e.tag given

theorem Admits.accepts {schema : Schema} {e : Element} (h : schema.Admits e) :
    schema.Accepts e := ⟨⟨e.info, h.tag, id⟩, h.accepted⟩

theorem Accepts.permits {schema : Schema} {e : Element} {member : Node} (h : schema.Accepts e)
    (hm : schema.Tolerates e.info member) : schema.Permits e.tag member := by
  obtain ⟨info, hinfo, hallows⟩ := h.known
  exact hm.permits hinfo hallows

end Schema

/-- An element with the rules and the attributes of another. -/
def Element.Copies (e original : Element) : Prop :=
  e.info = original.info ∧ e.attributes = original.attributes

theorem Element.Copies.accepts {schema : Schema} {e original : Element} (h : e.Copies original)
    (ha : schema.Accepts original) : schema.Accepts e := by
  obtain ⟨info, attributes, children⟩ := e
  obtain ⟨rfl, rfl⟩ := h
  exact ⟨ha.known, ha.accepted⟩

namespace World

theorem Holds.of_perform_link {w : World} {a b source : ArenaId} {h : Handle} {node : Node}
    (hold : (perform (link a source) w).2.Holds b h node) : w.Holds b h node := by
  rcases perform_link_cases w a source with ⟨-, hrun⟩ | ⟨-, hrun⟩
  · rwa [hrun] at hold
  · rw [hrun] at hold
    exact (hold.congr (arenas_tell ..)).of_link

/-- The members of an element are tolerated, and the element is accepted or copies one of some
originals. -/
structure Vouches (schema : Schema) (Original : Element → Prop) (w : World) (e : Element) :
    Prop where
  members : ∀ member, Node.Member w.Live (.fragment e.children) member →
    schema.Tolerates e.info member
  origin : schema.Accepts e ∨ ∃ original, Original original ∧ e.Copies original

/-- What an element held stays as it was, so it stays vouched for. -/
theorem Vouches.step {schema : Schema} {Original : Element → Prop} {w w' : World} {e : Element}
    (hvouches : Vouches schema Original w e) (hstep : World.Step w w') (hw : w.Ordered)
    {a : ArenaId} {h : Handle} (hold : w.Holds a h (.element e)) :
    Vouches schema Original w' e where
  members member hm :=
    hvouches.members member (hm.of_issued hstep.ages hw.closed (hw.closed a h (.element e) hold))
  origin := hvouches.origin

/-- A world in which every element that an arena got since another world is vouched for. -/
structure Vetted (w₀ : World) (dest : ArenaId) (Original : Element → Prop) (w : World) : Prop where
  evolves : w₀.Evolves w
  elements : ∀ h e, w.Holds dest h (.element e) → ¬ w₀.Issued h →
    Vouches (w₀.arena dest).options.schema Original w e

namespace Vetted

variable {w₀ w : World} {dest : ArenaId} {Original : Element → Prop}

theorem refl (w₀ : World) (dest : ArenaId) (Original : Element → Prop) :
    w₀.Vetted dest Original w₀ :=
  ⟨.refl, fun _ _ hold hnew => absurd hold.issued hnew⟩

variable (hw₀ : w₀.Ordered) (hs : w₀.Vetted dest Original w)
include hw₀ hs

/-- A change that brings the arena no element leaves it vetted. -/
theorem of_holds {w' : World} (hstep : World.Step w w')
    (hholds : ∀ h e, w'.Holds dest h (.element e) → w.Holds dest h (.element e)) :
    w₀.Vetted dest Original w' := by
  refine ⟨hs.evolves.tail hstep, fun h e hold hnew => ?_⟩
  have hbefore := hholds h e hold
  exact (hs.elements h e hbefore hnew).step hstep (hs.evolves.ordered hw₀) hbefore

theorem aside {w' : World} (harenas : w'.arenas = w.arenas) (hstored : w.stored ≤ w'.stored) :
    w₀.Vetted dest Original w' :=
  hs.of_holds hw₀ (.growth (.aside harenas hstored)) fun _ _ hold => hold.congr harenas

theorem tell (listener : Option Listener) (event : Event) :
    w₀.Vetted dest Original (w.tell listener event) :=
  hs.aside hw₀ (w.arenas_tell listener event) (w.stored_tell listener event).ge

theorem link (a source : ArenaId) :
    w₀.Vetted dest Original (perform (link a source) w).2 := by
  have hlink : w₀.Vetted dest Original (w.modifyArena a (·.addLink source)) :=
    hs.of_holds hw₀ (.growth (.link a source)) fun _ _ hold => hold.of_link
  rcases perform_link_cases w a source with ⟨-, hrun⟩ | ⟨-, hrun⟩
  · rwa [hrun]
  · rw [hrun]
    exact hlink.tell hw₀ _ _

/-- A node may be stored if it is no element, or is vouched for. -/
theorem allocate {a : ArenaId} {node : Node}
    (hnode : a = dest → w.Opened a → node.Within
      (Vouches (w₀.arena dest).options.schema Original (w.store a node))) :
    w₀.Vetted dest Original (perform (allocate a node) w).2 := by
  refine allocate_leaves hs fun hresolves => ?_
  have hstep : World.Step w (w.store a node) := .growth (growth_store hresolves)
  refine ⟨hs.evolves.tail hstep, fun h e hold hnew => ?_⟩
  rcases hold.of_store with hbefore | ⟨ha, rfl, heq, -⟩
  · exact (hs.elements h e hbefore hnew).step hstep (hs.evolves.ordered hw₀) hbefore
  · exact hnode rfl ha e heq.symm

omit hs in
/-- A node that is no element may be stored anywhere. -/
theorem invariant_allocate {a : ArenaId} {node : Node} (hplain : ∀ e, node ≠ .element e) :
    Invariant (w₀.Vetted dest Original) (MarkupArena.allocate a node) := fun _ hv =>
  ⟨hv.allocate hw₀ fun _ _ e he => absurd he (hplain e), fun _ _ => True.intro⟩

/-- An element may be placed if it is vouched for with whatever children, and so are its parts. -/
theorem place {a : ArenaId} {info : TagInfo} {attributes : List Attribute} {parts : List Part}
    (horigin : a = dest → w.Opened a → ∀ children,
      (w₀.arena dest).options.schema.Accepts ⟨info, attributes, children⟩)
    (hparts : a = dest → w.Opened a → ∀ part ∈ parts,
      w.AllIn ((w₀.arena dest).options.schema.Tolerates info) part) :
    w₀.Vetted dest Original (perform (Build.place a info attributes parts) w).2 := by
  have hstores : Invariant (w₀.Vetted dest Original) (parts.mapM (Build.store a)) :=
    Build.invariant_storeAll (fun _ => invariant_allocate hw₀ nofun) parts
  unfold Build.place
  rw [perform_bind]
  rcases h : perform (parts.mapM (Build.store a)) w with ⟨f | handles, w₁⟩
  · exact hstores.of_perform hs h
  · have hs₁ : w₀.Vetted dest Original w₁ := hstores.of_perform hs h
    refine hs₁.allocate hw₀ fun hdest ha₁ => ?_
    rintro _ ⟨⟩
    have ha : w.Opened a := Build.opened_of_storeAll h ha₁
    refine ⟨fun member hm => ?_, .inl (horigin hdest ha handles)⟩
    have hclosed := (hs.evolves.ordered hw₀).closed
    have hstore := w₁.grows_store a (.element ⟨info, attributes, handles⟩)
    obtain ⟨hgrow, hplaced⟩ := Build.yields_storeAll ha parts w w₁ handles (.refl w) h
    cases hm with
    | itself flat => exact absurd rfl (flat _)
    | within hchild hlive hm =>
      obtain ⟨part, hpart, hhandle⟩ := Build.placed_of_mem (hplaced _ hstore) hchild
      exact ((hparts hdest ha part hpart).ages (hgrow.trans hstore).ages hclosed).member
        hhandle hlive hm

end Vetted

section
variable {w₀ w : World} {dest : ArenaId} {Original : Element → Prop} (hw₀ : w₀.Ordered)
  (hdest : w₀.Opened dest) (hvalidate : (w₀.arena dest).options.validate = true)
include hw₀ hdest hvalidate

theorem Vetted.elementAt (hs : w₀.Vetted dest Original w) (a : ArenaId) (site : Option CallSite)
    (tag : String) (input : AttributeInput) (children : List Child) :
    w₀.Vetted dest Original (perform (Build.elementAt a site tag input children) w).2 := by
  rw [Build.perform_elementAt]
  rcases h : w.accept a tag input (Child.listParts children) with f | ⟨info, given⟩
  · exact hs
  · have harenas := Build.arenas_announce w a site tag given
    have hstored := (Build.stored_announce w a site tag given).ge
    have hclosed := (hs.evolves.ordered hw₀).closed
    have hoptions := (hs.evolves.ages.arena dest hdest).options
    refine (hs.aside hw₀ harenas hstored).place hw₀ (fun ha _ => ?_) fun ha _ part hpart => ?_
    all_goals
      subst ha
      rw [← hoptions] at hvalidate ⊢
    · exact fun children => (admits_of_accept h hvalidate site children).accepts
    · obtain ⟨hinfo, -, hchecks⟩ := accept_ok h
      have htolerated := allIn_of_checkParts (hchecks hvalidate).2 part hpart
      exact htolerated.ages (Step.growth (.aside harenas hstored)).ages hclosed

/-- A copy is vouched for by its original. -/
theorem Vetted.withChildren (hs : w₀.Vetted dest Original w) (e : Element) (children : List Handle)
    (hcopy : ∃ original, Original original ∧ e.Copies original) :
    w₀.Vetted dest Original (perform (Build.withChildren dest e children) w).2 := by
  rw [Build.perform_withChildren]
  split
  next hchecks =>
    refine hs.allocate hw₀ fun _ ha => ?_
    rintro _ ⟨⟩
    refine ⟨fun member hm => ?_, .inr hcopy⟩
    have hoptions := (hs.evolves.ages.arena dest hdest).options
    have hclosed := (hs.evolves.ordered hw₀).closed
    have hstore := w.grows_store dest (.element { e with children })
    rw [← hoptions] at hvalidate ⊢
    rw [if_pos hvalidate] at hchecks
    cases hm with
    | itself flat => exact absurd rfl (flat _)
    | within hchild hlive hm =>
      have htolerated := allIn_of_checkParts hchecks _ (List.mem_map_of_mem hchild)
      exact (htolerated.ages hstore.ages hclosed).member (a := dest) rfl hlive hm
  next => exact hs

end

/-- The elements of a tree that is stored under a handle. -/
def Beneath (w : World) (root : Handle) (e : Element) : Prop :=
  ∃ h, Relation.ReflTransGen w.Under h root ∧ w.Live h (.element e)

end World

namespace Revision

section
variable {w : World} {source dest : ArenaId} {root : Handle} {Own : σ → Prop}
  {visitor : Visitor (Session σ)} (hw : w.Ordered) (hdest : w.Opened dest)
  (hvalidate : (w.arena dest).options.validate = true)
include hw hdest hvalidate

theorem vetted_materialize (Original : Element → Prop) (replacement : Replacement) :
    Invariant (w.Vetted dest Original) (materialize dest replacement) := by
  cases replacement with
  | stored handle => exact Invariant.pure handle
  | described description =>
    cases description with
    | element tag input children =>
      exact fun v hv =>
        ⟨hv.elementAt hw hdest hvalidate dest none tag input [children], fun _ _ => True.intro⟩
    | text value => exact World.Vetted.invariant_allocate hw nofun
    | fragment children =>
      show Invariant _ (Build.fragment dest [children])
      unfold Build.fragment
      exact (Build.invariant_storeAll (fun _ => World.Vetted.invariant_allocate hw nofun) _).bind
        fun _ _ => World.Vetted.invariant_allocate hw nofun
    | rendered markup => exact World.Vetted.invariant_allocate hw nofun

/-- A node of the tree that is stored again is vouched for by what it was. -/
theorem vetted_settle {node : Node} {h : Handle} (hunder : Relation.ReflTransGen w.Under h root)
    (hlive : w.Live h node) (results : List (List Handle)) :
    Invariant (w.Vetted dest (w.Beneath root)) (settle dest node h results) := by
  unfold settle
  split
  · exact Invariant.pure h
  · cases node with
    | element e =>
      exact fun v hv => ⟨hv.withChildren hw hdest hvalidate e _ ⟨e, ⟨h, hunder, hlive⟩, rfl, rfl⟩,
        fun _ _ => True.intro⟩
    | _ => exact World.Vetted.invariant_allocate hw nofun

variable (hvisitor : ∀ node h depth,
  Invariant (fun s : World × σ => w.Vetted dest (w.Beneath root) s.1 ∧ Own s.2)
    (visitor node h depth))
include hvisitor

/-- Whatever the visitor changes on the way, a visit is shown the nodes that were stored in the tree
before. -/
theorem vetted_visit {h : Handle} (hissued : w.Issued h)
    (hunder : Relation.ReflTransGen w.Under h root) (bound depth : Nat) :
    Invariant (fun s : World × σ => w.Vetted dest (w.Beneath root) s.1 ∧ Own s.2)
      (visit source dest visitor bound depth h) := by
  induction bound generalizing h depth with
  | zero => exact Keeps.lift (Keeps.throw _)
  | succ bound ih =>
    unfold visit
    have hlook : Keeps (w.Vetted dest (w.Beneath root)) (fun node => w.Live h node)
        (resolve source h) := by
      refine keeps_observe fun v hv node hr => ?_
      obtain ⟨b, -, hold⟩ := World.resolve_eq_ok_iff.mp hr
      exact ⟨b, hold.of_issued hv.evolves.ages hissued⟩
    refine hlook.lift.bind fun node hlive => ?_
    have hchildren : ∀ child ∈ node.children,
        Invariant (fun s : World × σ => w.Vetted dest (w.Beneath root) s.1 ∧ Own s.2)
          (visit source dest visitor bound (depth + 1) child) := by
      intro child hchild
      obtain ⟨b, hold⟩ := hlive
      exact ih (hw.closed b h node hold child hchild)
        (hunder.head ⟨b, node, hold.resolve, hchild⟩) (depth + 1)
    have hdescend : Invariant (fun s : World × σ => w.Vetted dest (w.Beneath root) s.1 ∧ Own s.2)
        (do
          let results ← node.children.mapM (visit source dest visitor bound (depth + 1))
          return [← monadLift (settle dest node h results)] : Session σ (List Handle)) :=
      (Invariant.mapM hchildren).bind fun results _ =>
        (vetted_settle hw hdest hvalidate hunder hlive results).lift.bind fun _ _ =>
          Invariant.pure _
    refine (hvisitor node h depth).bind fun change _ => ?_
    cases change with
    | keep => exact hdescend
    | replace replacement =>
      cases replacement with
      | stored handle =>
        dsimp only
        split
        · exact hdescend
        · exact Invariant.pure _
      | described description =>
        exact (vetted_materialize hw hdest hvalidate _ _).lift.bind fun _ _ => Invariant.pure _
    | remove => exact Invariant.pure _
    | splice nodes =>
      exact Invariant.mapM fun node _ => (vetted_materialize hw hdest hvalidate _ node).lift

variable (source) in
/-- The root was stored before if it resolves after no more than a link. -/
theorem vetted_visit_root {v : World} (hv : w.Vetted dest (w.Beneath root) v)
    (hheld : ∀ b h node, v.Holds b h node → w.Holds b h node) {own : σ} (hown : Own own) :
    w.Vetted dest (w.Beneath root)
        (perform (visit source dest visitor v.depthBound 0 root) (v, own)).2.1 ∧
      Own (perform (visit source dest visitor v.depthBound 0 root) (v, own)).2.2 := by
  cases hroot : v.resolve source root with
  | error f =>
    unfold World.depthBound visit
    rw [perform_bind, perform_lift, resolve, perform_observe, hroot]
    exact ⟨hv, hown⟩
  | ok node =>
    obtain ⟨b, -, hold⟩ := World.resolve_eq_ok_iff.mp hroot
    have hissued := (hheld b root node hold).issued
    exact (vetted_visit hw hdest hvalidate hvisitor hissued .refl _ _ (v, own) ⟨hv, hown⟩).1

theorem vetted_revise {own own' : σ} (hown : Own own) {outcome : Except Failure Handle}
    {w' : World} (hrun : perform (revise source dest root visitor) (w, own) = (outcome, w', own')) :
    w.Vetted dest (w.Beneath root) w' := by
  have hlinked : w.Vetted dest (w.Beneath root) (perform (link dest source) w).2 :=
    (World.Vetted.refl w dest _).link hw dest source
  have hvisit := vetted_visit_root source hw hdest hvalidate hvisitor hlinked
    (fun _ _ _ hold => hold.of_perform_link) hown
  have hcollect : ∀ results : List Handle,
      Invariant (fun s : World × σ => w.Vetted dest (w.Beneath root) s.1 ∧ Own s.2)
        (monadLift (allocate dest (.fragment results)) : Session σ Handle) := fun results =>
    (World.Vetted.invariant_allocate hw fun _ he => by cases he).lift
  unfold revise at hrun
  rw [perform_bind, perform_lift] at hrun
  rcases hlink : perform (link dest source) w with ⟨f | _, v⟩
  · cases hlink
  rw [hlink] at hvisit hrun
  dsimp only at hvisit hrun
  rw [perform_bind, perform_lift, perform_observe] at hrun
  dsimp only at hrun
  rw [perform_bind] at hrun
  rcases hresults : perform (visit source dest visitor v.depthBound 0 root) (v, own) with
    ⟨f | results, u⟩
  · rw [hresults] at hvisit hrun
    obtain ⟨-, rfl⟩ := Prod.mk.inj hrun
    exact hvisit.1
  · rw [hresults] at hvisit hrun
    dsimp only at hrun
    split at hrun
    · obtain ⟨-, heq⟩ := Prod.mk.inj hrun
      obtain rfl := congrArg Prod.fst heq
      exact hvisit.1
    · exact ((hcollect _).of_perform hvisit hrun).1

end

end Revision

namespace World

/-- Every element that an arena got since another world has a tag, attributes and members that its
schema accepts, whoever looks; or it copies an original that the schema would not take for its tag
and attributes. Its members are tolerated in either case. -/
def Rebuilt (w : World) (dest : ArenaId) (Original : Element → Prop) (w' : World) : Prop :=
  ∀ h e, w'.Holds dest h (.element e) → ¬ w.Issued h →
    let schema := (w.arena dest).options.schema
    (∀ b member, Node.Member (fun g n => w'.resolve b g = .ok n) (.fragment e.children) member →
      schema.Tolerates e.info member) ∧
    ((schema.has e.tag = true ∧ (∀ given ∈ e.attributes, schema.AdmitsAttribute e.tag given) ∧
      ∀ b member, Node.Member (fun g n => w'.resolve b g = .ok n) (.fragment e.children) member →
        schema.Permits e.tag member) ∨
    ∃ original, Original original ∧ e.Copies original ∧ ¬ schema.Accepts original)

theorem Vetted.rebuilt {w w' : World} {dest : ArenaId} {Original : Element → Prop}
    (h : w.Vetted dest Original w') : w.Rebuilt dest Original w' := by
  intro handle e hold hnew schema
  obtain ⟨hmembers, horigin⟩ := h.elements handle e hold hnew
  have htolerated : ∀ b member,
      Node.Member (fun g n => w'.resolve b g = .ok n) (.fragment e.children) member →
        schema.Tolerates e.info member := fun b member hm =>
    hmembers member (hm.mono fun _ _ hr => live_of_resolve hr)
  have haccepted : schema.Accepts e → schema.has e.tag = true ∧
      (∀ given ∈ e.attributes, schema.AdmitsAttribute e.tag given) ∧ ∀ b member,
        Node.Member (fun g n => w'.resolve b g = .ok n) (.fragment e.children) member →
          schema.Permits e.tag member := by
    intro ha
    obtain ⟨info, hinfo, -⟩ := ha.known
    refine ⟨?_, ha.accepted, fun b member hm => ha.permits (htolerated b member hm)⟩
    rw [Schema.has, hinfo]
    rfl
  refine ⟨htolerated, ?_⟩
  rcases horigin with ha | ⟨original, horiginal, hcopies⟩
  · exact .inl (haccepted ha)
  · by_cases ha : schema.Accepts original
    · exact .inl (haccepted (hcopies.accepts ha))
    · exact .inr ⟨original, horiginal, hcopies, ha⟩

/-- What an arena that validates gets by a revision is as its schema wants it, but for copies of
elements which the schema would not take for their tag and attributes. The visitor may do whatever
leaves the arena with such elements only. The same holds where nodes are replaced or dropped by a
test, and of a single copy. -/
theorem rebuilt_of_revise {w : World} (hw : w.Reachable) {dest : ArenaId} (hdest : w.Opened dest)
    (hvalidate : (w.arena dest).options.validate = true) :
    (∀ {σ : Type} {source root} {visitor : Revision.Visitor (Session σ)} {own own' outcome w'}
      (Own : σ → Prop), (∀ node h depth,
        Invariant (fun s : World × σ => w.Vetted dest (w.Beneath root) s.1 ∧ Own s.2)
          (visitor node h depth)) → Own own →
      perform (Revision.revise source dest root visitor) (w, own) = (outcome, w', own') →
      w.Rebuilt dest (w.Beneath root) w') ∧
    (∀ {σ : Type} {source root} {f : Node → Handle → Session σ (Option Replacement)}
      {own own' outcome w'} (Own : σ → Prop),
      (∀ node h, Invariant (fun s : World × σ => w.Vetted dest (w.Beneath root) s.1 ∧ Own s.2)
        (f node h)) → Own own →
      perform (Revision.replaceNodes source dest root f) (w, own) = (outcome, w', own') →
      w.Rebuilt dest (w.Beneath root) w') ∧
    (∀ {σ : Type} {source root} {accepts : Node → Handle → Session σ Bool} {own own' outcome w'}
      (Own : σ → Prop),
      (∀ node h, Invariant (fun s : World × σ => w.Vetted dest (w.Beneath root) s.1 ∧ Own s.2)
        (accepts node h)) → Own own →
      perform (Revision.filterNodes source dest root accepts) (w, own) = (outcome, w', own') →
      w.Rebuilt dest (w.Beneath root) w') ∧
    ∀ {e children outcome w'}, perform (Build.withChildren dest e children) w = (outcome, w') →
      w.Rebuilt dest (· = e) w' := by
  have hordered := hw.ordered
  refine ⟨fun _ hvisitor hown hrun => ?_, fun _ hf hown hrun => ?_, fun _ haccepts hown hrun => ?_,
    fun {e children outcome w'} hrun => ?_⟩
  · exact (Revision.vetted_revise hordered hdest hvalidate hvisitor hown hrun).rebuilt
  · unfold Revision.replaceNodes at hrun
    refine (Revision.vetted_revise hordered hdest hvalidate (fun node h _ => ?_) hown hrun).rebuilt
    exact (hf node h).bind fun _ _ => Invariant.pure _
  · unfold Revision.filterNodes at hrun
    refine (Revision.vetted_revise hordered hdest hvalidate (fun node h _ => ?_) hown hrun).rebuilt
    exact (haccepts node h).bind fun _ _ => Invariant.pure _
  · have hcopied := (Vetted.refl w dest (· = e)).withChildren hordered hdest hvalidate e children
      ⟨e, rfl, rfl, rfl⟩
    rw [hrun] at hcopied
    exact hcopied.rebuilt

end World

/-- An arena for paragraphs, and one beside it with another schema. -/
def prosePair (schema : Schema) : World :=
  { arenas := #[{ options := { schema := prose }, listener := none },
      { options := { schema }, listener := none }] }

def besideText (schema : Schema) : World := (prosePair schema).store ⟨0⟩ (.text "line")

def besideParagraph (schema : Schema) : World :=
  (besideText schema).store ⟨0⟩ (.element writtenParagraph)

theorem reachable_besideParagraph (schema : Schema) : (besideParagraph schema).Reachable := by
  have hpair : (prosePair schema).Reachable :=
    (World.reachable_empty.call (.openArena { schema := prose } none)).call
      (.openArena { schema } none)
  have htext : (besideText schema).Reachable := hpair.store _ _ rfl (List.forall_mem_nil _)
  refine htext.store _ _ rfl fun child hchild => ?_
  obtain rfl := List.mem_singleton.mp hchild
  exact ⟨_, World.Holds.resolve ⟨0, 0, rfl, rfl⟩⟩

/-- Drops what is written and keeps the elements around it. -/
def dropTexts (node : Node) (_ : Handle) : Session Unit Bool :=
  pure (match node with | .text _ => false | _ => true)

def emptied : Element := ⟨paragraph, [], []⟩

/-- The paragraph without its text is stored beside it. -/
def afterDrop (schema : Schema) : World :=
  ((besideParagraph schema).modifyArena ⟨1⟩ (·.addLink ⟨0⟩)).store ⟨1⟩ (.element emptied)

/-- The arena beside the paragraph is linked to its arena. -/
def besideLinked (schema : Schema) : World :=
  (besideParagraph schema).modifyArena ⟨1⟩ (·.addLink ⟨0⟩)

def textDropper : Revision.Visitor (Session Unit) := fun node h _ => do
  return if ← dropTexts node h then .keep else .remove

theorem perform_visit_text (schema : Schema) :
    perform (Revision.visit ⟨0⟩ ⟨1⟩ textDropper 2 1 (ArenaId.handle ⟨0⟩ 0 0))
      (besideLinked schema, ()) = (.ok [], besideLinked schema, ()) := by
  have htext : (besideLinked schema).resolve ⟨0⟩ (ArenaId.handle ⟨0⟩ 0 0) = .ok (.text "line") :=
    World.Holds.resolve ⟨0, 0, rfl, rfl⟩
  unfold Revision.visit
  rw [perform_bind, perform_lift, resolve, perform_observe, htext]
  rfl

theorem perform_visit_paragraph (schema : Schema) :
    perform (Revision.visit ⟨0⟩ ⟨1⟩ textDropper 3 0 (ArenaId.handle ⟨0⟩ 0 1))
      (besideLinked schema, ()) = (.ok [ArenaId.handle ⟨1⟩ 0 0], afterDrop schema, ()) := by
  have hparagraph : (besideLinked schema).resolve ⟨0⟩ (ArenaId.handle ⟨0⟩ 0 1) =
      .ok (.element writtenParagraph) := World.Holds.resolve ⟨1, 0, rfl, rfl⟩
  have hchildren : perform (writtenParagraph.children.mapM (Revision.visit ⟨0⟩ ⟨1⟩ textDropper 2 1))
      (besideLinked schema, ()) = (.ok [[]], besideLinked schema, ()) := by
    rw [writtenParagraph, List.mapM_cons, perform_bind, perform_visit_text]
    rfl
  -- The paragraph comes back without its only child, so it is copied.
  have hsettle : perform (Revision.settle ⟨1⟩ (.element writtenParagraph) (ArenaId.handle ⟨0⟩ 0 1)
      [[]]) (besideLinked schema) = (.ok (ArenaId.handle ⟨1⟩ 0 0), afterDrop schema) := rfl
  unfold Revision.visit
  rw [perform_bind, perform_lift, resolve, perform_observe, hparagraph]
  show perform (do
    let results ← writtenParagraph.children.mapM (Revision.visit ⟨0⟩ ⟨1⟩ textDropper 2 1)
    return [← monadLift (Revision.settle ⟨1⟩ (.element writtenParagraph)
      (ArenaId.handle ⟨0⟩ 0 1) results)] : Session Unit (List Handle)) _ = _
  rw [perform_bind, hchildren]
  dsimp only
  rw [perform_bind, perform_lift, hsettle]
  rfl

theorem perform_dropTexts (schema : Schema) :
    perform (Revision.filterNodes ⟨0⟩ ⟨1⟩ (ArenaId.handle ⟨0⟩ 0 1) dropTexts)
      (besideParagraph schema, ()) = (.ok (ArenaId.handle ⟨1⟩ 0 0), afterDrop schema, ()) := by
  have hlink : perform (link ⟨1⟩ ⟨0⟩) (besideParagraph schema) =
    (.ok ⟨⟩, besideLinked schema) := rfl
  show perform (Revision.revise ⟨0⟩ ⟨1⟩ (ArenaId.handle ⟨0⟩ 0 1) textDropper) _ = _
  unfold Revision.revise
  rw [perform_bind, perform_lift, hlink]
  dsimp only
  rw [perform_bind, perform_lift, perform_observe]
  dsimp only
  rw [perform_bind, show World.depthBound _ = 3 from rfl, perform_visit_paragraph]
  rfl

theorem holds_afterDrop (schema : Schema) :
    (afterDrop schema).Holds ⟨1⟩ (ArenaId.handle ⟨1⟩ 0 0) (.element emptied) := ⟨0, 0, rfl, rfl⟩

theorem not_issued_besideParagraph (schema : Schema) :
    ¬ (besideParagraph schema).Issued (ArenaId.handle ⟨1⟩ 0 0) :=
  World.not_issued_lastHandle (w := besideParagraph schema) (a := ⟨1⟩) (Nat.lt_succ_self 1)
    (.element emptied)

/-- Where both arenas have the same schema, the copy is as that schema wants it. -/
theorem rebuilt_of_dropTexts : (besideParagraph prose).Reachable ∧
    (besideParagraph prose).Opened ⟨1⟩ ∧
    ((besideParagraph prose).arena ⟨1⟩).options.validate = true ∧
    perform (Revision.filterNodes ⟨0⟩ ⟨1⟩ (ArenaId.handle ⟨0⟩ 0 1) dropTexts)
      (besideParagraph prose, ()) = (.ok (ArenaId.handle ⟨1⟩ 0 0), afterDrop prose, ()) ∧
    ((besideParagraph prose).arena ⟨1⟩).options.schema.has emptied.tag = true := by
  have hreachable := reachable_besideParagraph prose
  have hopened : (besideParagraph prose).Opened ⟨1⟩ := Nat.lt_succ_self 1
  obtain ⟨-, -, hfilter, -⟩ := World.rebuilt_of_revise hreachable hopened rfl
  have hrebuilt := hfilter (fun _ => True) (fun _ _ => Invariant.pure _) True.intro
    (perform_dropTexts prose)
  obtain ⟨-, horigin⟩ := hrebuilt _ _ (holds_afterDrop prose) (not_issued_besideParagraph prose)
  refine ⟨hreachable, hopened, rfl, perform_dropTexts prose, ?_⟩
  rcases horigin with ⟨hknown, -⟩ | ⟨original, -, ⟨hinfo, hattributes⟩, hrefused⟩
  · exact hknown
  · refine absurd ?_ hrefused
    refine ⟨⟨paragraph, ?_, hinfo ▸ id⟩, fun given hgiven => ?_⟩
    · rw [Element.tag, ← hinfo]
      rfl
    · rw [← hattributes] at hgiven
      cases hgiven

/-- A schema without any tags. -/
def tagless : Schema := ⟨Number.ofNat 1, [], [], []⟩

/-- An arena that validates got an element whose tag its schema does not know. -/
theorem unknown_of_dropTexts : (besideParagraph tagless).Reachable ∧
    (besideParagraph tagless).Opened ⟨1⟩ ∧
    ((besideParagraph tagless).arena ⟨1⟩).options.validate = true ∧
    perform (Revision.filterNodes ⟨0⟩ ⟨1⟩ (ArenaId.handle ⟨0⟩ 0 1) dropTexts)
      (besideParagraph tagless, ()) = (.ok (ArenaId.handle ⟨1⟩ 0 0), afterDrop tagless, ()) ∧
    (afterDrop tagless).Holds ⟨1⟩ (ArenaId.handle ⟨1⟩ 0 0) (.element emptied) ∧
    ¬ (besideParagraph tagless).Issued (ArenaId.handle ⟨1⟩ 0 0) ∧
    ((besideParagraph tagless).arena ⟨1⟩).options.schema.has emptied.tag = false :=
  ⟨reachable_besideParagraph tagless, Nat.lt_succ_self 1, rfl, perform_dropTexts tagless,
    holds_afterDrop tagless, not_issued_besideParagraph tagless, rfl⟩

end MarkupArena
