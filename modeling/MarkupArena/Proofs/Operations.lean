import MarkupArena.Build.Lines
import MarkupArena.Lease
import MarkupArena.Proofs.Making
import MarkupArena.Revision
import MarkupArena.Walk.Content

/-! Invariants of a world through the operations: what stands the making of single nodes and copies
stands every operation that is built from them. -/
namespace MarkupArena

/-- Every element that a world shows has a property. -/
def World.Shows (w : World) (P : Element → Prop) : Prop :=
  ∀ a h e, w.resolve a h = .ok (.element e) → P e

def Node.Within (P : Element → Prop) (node : Node) : Prop := ∀ e, node = .element e → P e

/-- What an invariant has to stand: events and other changes beside the arenas, links, the making
of nodes, and copies of elements that were shown. -/
structure Stands (inv : World → Prop) (Held : Element → Prop) : Prop where
  shows : ∀ w, inv w → w.Shows Held
  aside : ∀ w w', w'.arenas = w.arenas → w.stored ≤ w'.stored → inv w → inv w'
  link : ∀ w a source, inv w → inv (w.modifyArena a (·.addLink source))
  text : ∀ a value, Invariant inv (allocate a (.text value))
  fragment : ∀ a children, Invariant inv (allocate a (.fragment children))
  rendered : ∀ a markup, Invariant inv (allocate a (.rendered markup))
  element : ∀ a site tag input children,
    Invariant inv (Build.elementAt a site tag input children)
  copy : ∀ a e children, Held e → Invariant inv (Build.withChildren a e children)

/-- The same of work on one arena only, beside which there are no changes but events. -/
structure StandsAt (inv : World → Prop) (Held : Element → Prop) (a : ArenaId) : Prop where
  shows : ∀ w, inv w → w.Shows Held
  tell : ∀ w listener event, inv w → inv (w.tell listener event)
  link : ∀ w source, inv w → inv (w.modifyArena a (·.addLink source))
  text : ∀ value, Invariant inv (allocate a (.text value))
  fragment : ∀ children, Invariant inv (allocate a (.fragment children))
  rendered : ∀ markup, Invariant inv (allocate a (.rendered markup))
  element : ∀ site tag input children, Invariant inv (Build.elementAt a site tag input children)
  copy : ∀ e children, Held e → Invariant inv (Build.withChildren a e children)

theorem Stands.at {inv : World → Prop} {Held : Element → Prop} (hs : Stands inv Held)
    (a : ArenaId) : StandsAt inv Held a where
  shows := hs.shows
  tell w listener event := hs.aside w _ (w.arenas_tell listener event) (w.stored_tell ..).ge
  link w source := hs.link w a source
  text := hs.text a
  fragment := hs.fragment a
  rendered := hs.rendered a
  element := hs.element a
  copy := hs.copy a

/-- What stands events, links and the storing of nodes in an arena stands all work on it. -/
theorem standsAt_of_allocate {inv : World → Prop} {Held : Element → Prop} {a : ArenaId}
    (hshows : ∀ w, inv w → w.Shows Held)
    (htell : ∀ w listener event, inv w → inv (w.tell listener event))
    (hlink : ∀ w source, inv w → inv (w.modifyArena a (·.addLink source)))
    (hallocate : ∀ node, Invariant inv (allocate a node)) : StandsAt inv Held a where
  shows := hshows
  tell := htell
  link := hlink
  text _ := hallocate _
  fragment _ := hallocate _
  rendered _ := hallocate _
  element site tag input children := by
    have hplace : ∀ info attributes parts, Invariant inv (Build.place a info attributes parts) :=
      fun info attributes parts =>
        (Build.invariant_storeAll (fun _ => hallocate _) parts).bind fun handles _ => hallocate _
    have hannounce : ∀ w given, inv w → inv (Build.announce w a site tag given) := by
      intro w given hw
      unfold Build.announce
      split
      · exact htell w _ _ hw
      · exact hw
    intro w hw
    rw [Build.perform_elementAt]
    split
    · exact hplace _ _ _ _ (hannounce w _ hw)
    · exact ⟨hw, fun _ h => by simp at h⟩
  copy e children _ := by
    unfold Build.withChildren
    refine Keeps.get.bind fun w _ => ?_
    dsimp only
    split
    · exact invariant_observe.bind fun _ _ => hallocate _
    · exact hallocate _

/-- What stands the elementary changes that add to a world stands the making of nodes. -/
theorem stands_of_growth {inv : World → Prop} {Held : Element → Prop}
    (hshows : ∀ w, inv w → w.Shows Held)
    (hinv : ∀ w w', World.Growth w w' → inv w → inv w') : Stands inv Held := by
  have hs : ∀ a, StandsAt inv Held a := fun a =>
    standsAt_of_allocate hshows
      (fun w listener event =>
        hinv w _ (.aside (w.arenas_tell listener event) (w.stored_tell ..).ge))
      (fun w source => hinv w _ (.link a source)) (invariant_allocate hinv a)
  exact {
    shows := hshows
    aside := fun w w' arenas stored => hinv w w' (.aside arenas stored)
    link := fun w a source => hinv w _ (.link a source)
    text := fun a => (hs a).text
    fragment := fun a => (hs a).fragment
    rendered := fun a => (hs a).rendered
    element := fun a => (hs a).element
    copy := fun a => (hs a).copy }

theorem keeps_resolve {inv : World → Prop} {Held : Element → Prop}
    (hshows : ∀ w, inv w → w.Shows Held) (a : ArenaId) (h : Handle) :
    Keeps inv (Node.Within Held) (resolve a h) :=
  keeps_observe fun w hw _ hnode e he => hshows w hw a h e (he ▸ hnode)

namespace StandsAt

variable {inv : World → Prop} {Held : Element → Prop} {a : ArenaId} (hs : StandsAt inv Held a)
include hs

theorem link_to (source : ArenaId) : Invariant inv (MarkupArena.link a source) := by
  refine Keeps.modify fun w hw => ?_
  dsimp only
  split
  · exact hw
  · exact hs.tell _ _ _ (hs.link w source hw)

theorem graft (source : ArenaId) (h : Handle) : Invariant inv (MarkupArena.graft a source h) :=
  (hs.link_to source).bind fun _ _ =>
    (keeps_resolve hs.shows a h).bind fun _ _ => Invariant.pure _

theorem makeFragment (children : List Child) : Invariant inv (Build.fragment a children) :=
  (Build.invariant_storeAll hs.text _).bind fun handles _ => hs.fragment handles

theorem makeElement (site : CallSite) (tag : String) (input : AttributeInput)
    (children : List Child) : Invariant inv (Build.element a site tag input children) :=
  Keeps.get.bind fun _ _ => hs.element _ tag input children

theorem realize (description : Description) : Invariant inv (Build.realize a description) := by
  cases description with
  | element tag input children => exact hs.element none tag input [children]
  | text value => exact hs.text value
  | fragment children => exact hs.makeFragment [children]
  | rendered markup => exact hs.rendered markup

theorem recordSite (tag : String) (site : CallSite) (given : List Attribute) :
    Invariant inv (Build.recordSite a tag site given) := by
  intro w hw
  rw [Build.perform_recordSite]
  unfold Build.announce
  split
  · exact ⟨hs.tell w _ _ hw, fun _ _ => True.intro⟩
  · exact ⟨hw, fun _ _ => True.intro⟩

theorem lines (site : CallSite) (value : String) (tab : Build.Tab) (separator : String) :
    Invariant inv (Build.lines a site value tab separator) :=
  (stepwise_invariant inv).lines hs.text (fun _ => invariant_observe) (hs.makeElement site _ _ _)
    (fun _ => hs.makeElement site _ _ _) value tab separator

theorem plainText (h : Handle) : Invariant inv (MarkupArena.plainText a h) := by
  unfold MarkupArena.plainText
  refine (keeps_resolve hs.shows a h).bind fun node _ => ?_
  split
  · exact Invariant.pure _
  · exact invariant_observe.bind fun text _ => hs.text text

theorem materialize (replacement : Replacement) :
    Invariant inv (Revision.materialize a replacement) := by
  cases replacement with
  | stored handle => exact Invariant.pure _
  | described description => exact hs.realize description

theorem settle {node : Node} (h : Handle) (results : List (List Handle))
    (hnode : node.Within Held) : Invariant inv (Revision.settle a node h results) := by
  unfold Revision.settle
  split
  · exact Invariant.pure _
  · cases node with
    | element e => exact hs.copy e _ (hnode e rfl)
    | text value => exact hs.fragment _
    | fragment children => exact hs.fragment _
    | rendered markup => exact hs.fragment _

end StandsAt

/-- What an invariant has to stand for trees to be revised into an arena: the link to theirs, the
storing again of nodes that were shown, and the making of replacements. -/
structure StandsRevision (inv : World → Prop) (Held : Element → Prop) (a : ArenaId) : Prop where
  shows : ∀ w, inv w → w.Shows Held
  link_to : ∀ source, Invariant inv (link a source)
  fragment : ∀ children, Invariant inv (allocate a (.fragment children))
  materialize : ∀ replacement, Invariant inv (Revision.materialize a replacement)
  settle : ∀ {node : Node} (h : Handle) (results : List (List Handle)), node.Within Held →
    Invariant inv (Revision.settle a node h results)

theorem StandsAt.revision {inv : World → Prop} {Held : Element → Prop} {a : ArenaId}
    (hs : StandsAt inv Held a) : StandsRevision inv Held a where
  shows := hs.shows
  link_to := hs.link_to
  fragment := hs.fragment
  materialize := hs.materialize
  settle := hs.settle

end MarkupArena
