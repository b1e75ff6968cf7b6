import MarkupArena.Proofs.Operations

/-! What work on an arena is composed of: looks at the world, the storing of single nodes, links,
resets, and the record of call sites. Whatever holds of these steps, and passes from steps to the
whole, holds of all work on an arena. -/
namespace MarkupArena

variable {α : Type}

/-- The operations that work on an arena. -/
inductive WorksOn (a : ArenaId) : {α : Type} → Action α → Prop where
  | allocate (node : Node) : WorksOn a (allocate a node)
  | link (source : ArenaId) : WorksOn a (link a source)
  | graft (source : ArenaId) (h : Handle) : WorksOn a (graft a source h)
  | reset : WorksOn a (reset a)
  | text (value : String) : WorksOn a (Build.text a value)
  | rendered (markup : Rendered) : WorksOn a (Build.rendered a markup)
  | fragment (children : List Child) : WorksOn a (Build.fragment a children)
  | element (site : CallSite) (tag : String) (input : AttributeInput) (children : List Child) :
      WorksOn a (Build.element a site tag input children)
  | recordSite (tag : String) (site : CallSite) (given : List Attribute) :
      WorksOn a (Build.recordSite a tag site given)
  | realize (description : Description) : WorksOn a (Build.realize a description)
  | materialize (replacement : Replacement) : WorksOn a (Revision.materialize a replacement)
  | settle (node : Node) (h : Handle) (results : List (List Handle)) :
      WorksOn a (Revision.settle a node h results)
  | withChildren (e : Element) (children : List Handle) :
      WorksOn a (Build.withChildren a e children)
  | lines (site : CallSite) (value : String) (tab : Build.Tab) (separator : String) :
      WorksOn a (Build.lines a site value tab separator)
  | plainText (h : Handle) : WorksOn a (plainText a h)

/-- A property of work that passes from steps to the whole, and holds of the steps that work on an
arena is composed of. -/
structure Composes (P : (α : Type) → Action α → Prop) (a : ArenaId) : Prop extends Stepwise P where
  look : ∀ {α : Type} (look : World → Except Failure α), P α (observe look)
  allocate : ∀ node, P Handle (allocate a node)
  link : ∀ source, P Unit (link a source)
  reset : P Unit (reset a)
  recordSite : ∀ tag site given, P (List Attribute) (Build.recordSite a tag site given)

/-- To take the world is to look at all of it. -/
theorem observe_ok : (observe Except.ok : Action World) = get := rfl

namespace Composes

variable {P : (α : Type) → Action α → Prop} {a : ArenaId} (h : Composes P a)
include h

theorem take {β : Type} {next : World → Action β} (hnext : ∀ w, P β (next w)) :
    P β (get >>= next) :=
  h.bind (observe_ok ▸ h.look .ok) hnext

theorem graft (source : ArenaId) (handle : Handle) :
    P Handle (MarkupArena.graft a source handle) := by
  refine h.bind (h.link source) fun _ => ?_
  exact h.bind (h.look _) fun _ => h.pure handle

theorem fragment (children : List Child) : P Handle (Build.fragment a children) :=
  h.toStepwise.fragment (fun _ => h.allocate _) (fun _ => h.allocate _) children

theorem elementAt (site : Option CallSite) (tag : String) (input : AttributeInput)
    (children : List Child) : P Handle (Build.elementAt a site tag input children) := by
  have hplace : ∀ info {record : Action (List Attribute)}, P (List Attribute) record →
      P Handle (do
        let attributes ← record
        let handles ← (Child.listParts children).mapM (Build.store a)
        MarkupArena.allocate a (.element ⟨info, attributes, handles⟩)) := fun info _ hrecord => by
    refine h.bind hrecord fun attributes => ?_
    exact h.bind (h.toStepwise.storeAll (fun _ => h.allocate _) _) fun _ => h.allocate _
  unfold Build.elementAt
  refine h.take fun w => ?_
  refine h.bind (h.look _) fun info => h.bind (h.look _) fun given => ?_
  dsimp only
  split
  on_goal 1 => refine h.bind (h.look _) fun _ => h.bind (h.look _) fun _ => ?_
  all_goals
    cases site with
    | none => exact hplace info (h.pure given)
    | some site => exact hplace info (h.recordSite tag site given)

theorem element (site : CallSite) (tag : String) (input : AttributeInput) (children : List Child) :
    P Handle (Build.element a site tag input children) :=
  h.take fun _ => h.elementAt _ tag input children

theorem realize (description : Description) : P Handle (Build.realize a description) := by
  cases description with
  | element tag input children => exact h.elementAt none tag input [children]
  | text value => exact h.allocate _
  | fragment children => exact h.fragment [children]
  | rendered markup => exact h.allocate _

theorem withChildren (e : Element) (children : List Handle) :
    P Handle (Build.withChildren a e children) := by
  unfold Build.withChildren
  refine h.take fun w => ?_
  dsimp only
  split
  · exact h.bind (h.look _) fun _ => h.allocate _
  · exact h.allocate _

theorem lines (site : CallSite) (value : String) (tab : Build.Tab) (separator : String) :
    P Handle (Build.lines a site value tab separator) :=
  h.toStepwise.lines (fun _ => h.allocate _) (fun _ => h.look _) (h.element site _ _ _)
    (fun _ => h.element site _ _ _) value tab separator

theorem plainText (handle : Handle) : P Handle (MarkupArena.plainText a handle) := by
  unfold MarkupArena.plainText
  refine h.bind (h.look _) fun node => ?_
  split
  · exact h.pure _
  · exact h.bind (h.look _) fun text => h.allocate _

theorem settle (node : Node) (handle : Handle) (results : List (List Handle)) :
    P Handle (Revision.settle a node handle results) := by
  unfold Revision.settle
  split
  · exact h.pure _
  · cases node with
    | element e => exact h.withChildren e _
    | _ => exact h.allocate _

theorem worksOn {act : Action α} (hact : WorksOn a act) : P α act := by
  cases hact with
  | allocate node => exact h.allocate node
  | link source => exact h.link source
  | graft source handle => exact h.graft source handle
  | reset => exact h.reset
  | text value => exact h.allocate _
  | rendered markup => exact h.allocate _
  | fragment children => exact h.fragment children
  | element site tag input children => exact h.element site tag input children
  | recordSite tag site given => exact h.recordSite tag site given
  | realize description => exact h.realize description
  | materialize replacement =>
    cases replacement with
    | stored handle => exact h.pure handle
    | described description => exact h.realize description
  | settle node handle results => exact h.settle node handle results
  | withChildren e children => exact h.withChildren e children
  | lines site value tab separator => exact h.lines site value tab separator
  | plainText handle => exact h.plainText handle

end Composes

/-- What stands work on an arena, the storing of any node there, and a reset of it stands every
operation on it. -/
theorem WorksOn.invariant {inv : World → Prop} {a : ArenaId} (hs : StandsAt inv (fun _ => True) a)
    (hallocate : ∀ node, Invariant inv (MarkupArena.allocate a node))
    (hreset : Invariant inv (MarkupArena.reset a)) {act : Action α} (h : WorksOn a act) :
    Invariant inv act := by
  have hcomposes : Composes (fun _ (work : Action _) => Invariant inv work) a :=
    { stepwise_invariant inv with
      look := fun _ => invariant_observe
      allocate := hallocate
      link := hs.link_to
      reset := hreset
      recordSite := hs.recordSite }
  exact hcomposes.worksOn h

end MarkupArena
