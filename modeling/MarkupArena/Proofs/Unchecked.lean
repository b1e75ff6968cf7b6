import MarkupArena.Build.Lines
import MarkupArena.Proofs.Likeness
import MarkupArena.Proofs.Rewriting
import MarkupArena.Render.Markup

/-! Work in a world where nothing is validated. Whatever succeeds under validation comes to the same
there: the checks refuse, and do nothing else. -/
namespace MarkupArena

def Arena.unchecked (arena : Arena) : Arena :=
  { arena with options := { arena.options with validate := false } }

/-- The same world, but that no arena validates. -/
def World.unchecked (w : World) : World := { w with arenas := w.arenas.map Arena.unchecked }

namespace World

@[simp] theorem unchecked_empty : unchecked {} = {} := by
  simp [unchecked]

@[simp] theorem opened_unchecked {w : World} {a : ArenaId} :
    w.unchecked.Opened a ↔ w.Opened a := by
  simp [unchecked, Opened]

/-- An arena that was never opened has no options of its own to lose. -/
theorem arena_unchecked (w : World) (a : ArenaId) :
    w.unchecked.arena a = if w.Opened a then (w.arena a).unchecked else w.arena a := by
  split
  next ha =>
    have ha : a.index < w.arenas.size := ha
    simp [unchecked, arena, Array.getD_eq_getD_getElem?, ha]
  next ha => rw [arena_of_not_opened ha, arena_of_not_opened (opened_unchecked.not.mpr ha)]

theorem like_unchecked (w : World) : w.Like Eq w.unchecked where
  size := Array.size_map
  stored := rfl
  arena a := by
    rw [arena_unchecked]
    split <;> exact ⟨rfl, rfl, rfl, rfl, rfl, fun _ _ _ h h' => Option.some.inj (h.symm.trans h')⟩

@[simp] theorem listener_unchecked (w : World) (a : ArenaId) :
    (w.unchecked.arena a).listener = (w.arena a).listener := by
  rw [arena_unchecked]
  split <;> rfl

@[simp] theorem traceConstruction_unchecked (w : World) (a : ArenaId) :
    (w.unchecked.arena a).options.traceConstruction =
      (w.arena a).options.traceConstruction := by
  rw [arena_unchecked]
  split <;> rfl

@[simp] theorem resolve_unchecked (w : World) (a : ArenaId) (h : Handle) :
    w.unchecked.resolve a h = w.resolve a h :=
  (w.like_unchecked.resolve a h).eq

@[simp] theorem depthBound_unchecked (w : World) : w.unchecked.depthBound = w.depthBound := rfl

@[simp] theorem checkParts_unchecked (w : World) (a : ArenaId) (info : TagInfo) (index : Nat)
    (parts : List Part) : w.unchecked.checkParts a info index parts =
      w.checkParts a info index parts :=
  w.like_unchecked.checkParts_eq (fun _ _ h => congrArg Node.bare h) a info index parts

theorem renderNode_unchecked (w : World) (a : ArenaId) (fuel : Nat) (h : Handle) :
    w.unchecked.renderNode a fuel h = w.renderNode a fuel h := by
  induction fuel generalizing h with
  | zero => rfl
  | succ fuel ih =>
    have hchildren : w.unchecked.renderNode a fuel = w.renderNode a fuel := funext ih
    simp only [renderNode, resolve_unchecked, hchildren]

@[simp] theorem render_unchecked (w : World) (a : ArenaId) (h : Handle) (withDoctype : Bool) :
    w.unchecked.render a h withDoctype = w.render a h withDoctype := by
  simp only [render, renderNode_unchecked, depthBound_unchecked]

/-- A check that is made nowhere but where it was made before. -/
theorem validate_of_unchecked {w : World} {a : ArenaId}
    (h : (w.unchecked.arena a).options.validate) : (w.arena a).options.validate := by
  rw [arena_unchecked] at h
  split at h
  · cases h
  · exact h

/-- A change of an arena that does not look at the option is the same with and without it. -/
theorem modifyArena_unchecked (w : World) (a : ArenaId) (change : Arena → Arena)
    (hchange : ∀ x, (change x).unchecked = change x.unchecked) :
    w.unchecked.modifyArena a change = (w.modifyArena a change).unchecked := by
  have harenas : (w.arenas.map Arena.unchecked).modify a.index change =
      (w.arenas.modify a.index change).map Arena.unchecked := by
    apply Array.ext
    · simp
    · intro i hi hi'
      simp only [Array.getElem_modify, Array.getElem_map]
      split
      · exact (hchange _).symm
      · rfl
  simp only [unchecked, modifyArena, harenas]

theorem store_unchecked (w : World) (a : ArenaId) (node : Node) :
    w.unchecked.store a node = (w.store a node).unchecked := by
  unfold store
  rw [w.modifyArena_unchecked a (·.push node) fun _ => rfl]
  rfl

theorem tell_unchecked (w : World) (listener : Option Listener) (event : Event) :
    w.unchecked.tell listener event = (w.tell listener event).unchecked := by
  cases listener <;> rfl

theorem lastHandle_unchecked (w : World) (a : ArenaId) :
    w.unchecked.lastHandle a = w.lastHandle a := by
  have halike := w.like_unchecked.arena a
  simp only [lastHandle, halike.generation, halike.size]

theorem accept_unchecked {w : World} {a : ArenaId} {tag : String} {input : AttributeInput}
    {parts : List Part} {accepted : TagInfo × List Attribute}
    (h : w.accept a tag input parts = .ok accepted) :
    w.unchecked.accept a tag input parts = .ok accepted := by
  unfold accept at h ⊢
  obtain ⟨info, hinfo, h⟩ := bind_eq_ok_iff.mp h
  obtain ⟨given, hgiven, h⟩ := bind_eq_ok_iff.mp h
  have hschema := (w.like_unchecked.arena a).schema
  simp only [hschema, checkParts_unchecked]
  refine bind_eq_ok_iff.mpr ⟨info, hinfo, bind_eq_ok_iff.mpr ⟨given, hgiven, ?_⟩⟩
  split
  next hvalidate =>
    rw [if_pos (validate_of_unchecked hvalidate)] at h
    exact h
  next =>
    split at h
    next =>
      obtain ⟨_, -, h⟩ := bind_eq_ok_iff.mp h
      obtain ⟨_, -, h⟩ := bind_eq_ok_iff.mp h
      exact h
    next => exact h

end World

/-- Work that succeeds comes to the same as other work where nothing is validated. -/
def Relaxes {α : Type} (work other : Action α) : Prop :=
  ∀ w w' x, perform work w = (.ok x, w') → perform other w.unchecked = (.ok x, w'.unchecked)

namespace Relaxes

variable {α β : Type}

theorem pure (x : α) : Relaxes (pure x) (pure x) := by
  intro w w' y h
  obtain ⟨hy, rfl⟩ := Prod.mk.inj h
  obtain rfl := Except.ok.inj hy
  rfl

theorem throw (f : Failure) : Relaxes (throw f : Action α) (throw f) :=
  fun _ _ _ h => by cases h

theorem bind {work other : Action α} {next next' : α → Action β} (hwork : Relaxes work other)
    (hnext : ∀ x, Relaxes (next x) (next' x)) : Relaxes (work >>= next) (other >>= next') := by
  intro w w' y h
  rw [perform_bind] at h ⊢
  rcases hfirst : perform work w with ⟨f | x, w₁⟩
  · rw [hfirst] at h
    cases h
  · rw [hfirst] at h
    rw [hwork w w₁ x hfirst]
    exact hnext x w₁ w' y h

theorem stepwise : Stepwise fun _ work => Relaxes work work where
  pure := Relaxes.pure
  bind := Relaxes.bind

theorem observe {look : World → Except Failure α} (h : ∀ w, look w.unchecked = look w) :
    Relaxes (MarkupArena.observe look) (MarkupArena.observe look) := by
  intro w w' x hrun
  rw [perform_observe] at hrun ⊢
  obtain ⟨hx, rfl⟩ := Prod.mk.inj hrun
  rw [h, hx]

theorem modify {f : World → World} (h : ∀ w, f w.unchecked = (f w).unchecked) :
    Relaxes (modify f : Action PUnit) (modify f) := by
  intro w w' x hrun
  obtain ⟨-, rfl⟩ := Prod.mk.inj hrun
  exact congrArg (Prod.mk _) (h w)

theorem resolve (a : ArenaId) (h : Handle) :
    Relaxes (MarkupArena.resolve a h) (MarkupArena.resolve a h) :=
  .observe fun w => w.resolve_unchecked a h

theorem allocate (a : ArenaId) (node : Node) :
    Relaxes (MarkupArena.allocate a node) (MarkupArena.allocate a node) := by
  intro w w' h hrun
  have hlike := w.like_unchecked
  rw [perform_allocate] at hrun ⊢
  rw [(hlike.arena a).exceededLimit?_eq, hlike.resolveAll_eq]
  split at hrun
  next => cases hrun
  next hlimit =>
    split at hrun
    next hall =>
      obtain ⟨hh, rfl⟩ := Prod.mk.inj hrun
      rw [← Except.ok.inj hh, World.store_unchecked, World.lastHandle_unchecked]
    next => cases hrun

theorem link (a source : ArenaId) :
    Relaxes (MarkupArena.link a source) (MarkupArena.link a source) := by
  refine .modify fun w => ?_
  have hlinks := (w.like_unchecked.arena a).links
  simp only [hlinks, World.listener_unchecked]
  rw [w.modifyArena_unchecked a (·.addLink source) fun _ => rfl, World.tell_unchecked]
  split <;> rfl

theorem graft (a source : ArenaId) (h : Handle) :
    Relaxes (MarkupArena.graft a source h) (MarkupArena.graft a source h) :=
  (Relaxes.link a source).bind fun _ => (Relaxes.resolve a h).bind fun _ => .pure h

theorem reset (a : ArenaId) : Relaxes (MarkupArena.reset a) (MarkupArena.reset a) := by
  refine .modify fun w => ?_
  have halike := w.like_unchecked.arena a
  simp only [halike.generation, halike.size, World.listener_unchecked]
  rw [w.modifyArena_unchecked a Arena.next fun _ => rfl, World.tell_unchecked]

section
variable (a : ArenaId)

theorem fragment (children : List Child) :
    Relaxes (Build.fragment a children) (Build.fragment a children) :=
  stepwise.fragment (fun _ => .allocate a _) (fun _ => .allocate a _) children

theorem elementAt (site : Option CallSite) (tag : String) (input : AttributeInput)
    (children : List Child) :
    Relaxes (Build.elementAt a site tag input children)
      (Build.elementAt a site tag input children) := by
  intro w w' h hrun
  rw [Build.perform_elementAt] at hrun ⊢
  rcases haccept : w.accept a tag input (Child.listParts children) with f | ⟨info, given⟩
  · rw [haccept] at hrun
    cases hrun
  · rw [haccept] at hrun
    have hannounce : Build.announce w.unchecked a site tag given =
        (Build.announce w a site tag given).unchecked := by
      unfold Build.announce
      rw [World.listener_unchecked, World.tell_unchecked]
      split <;> rfl
    have hplace : Relaxes
        (Build.place a info (Build.withSite site given) (Child.listParts children))
        (Build.place a info (Build.withSite site given) (Child.listParts children)) :=
      (stepwise.storeAll (fun _ => .allocate a _) _).bind fun handles => .allocate a _
    rw [World.accept_unchecked haccept]
    simp only [hannounce]
    exact hplace _ w' h hrun

theorem element (site : CallSite) (tag : String) (input : AttributeInput)
    (children : List Child) :
    Relaxes (Build.element a site tag input children)
      (Build.element a site tag input children) := by
  intro w w' h hrun
  rw [Build.perform_element] at hrun ⊢
  rw [World.traceConstruction_unchecked]
  exact elementAt a _ tag input children w w' h hrun

theorem realize (description : Description) :
    Relaxes (Build.realize a description) (Build.realize a description) := by
  cases description with
  | element tag input children => exact elementAt a none tag input [children]
  | text value => exact .allocate a (.text value)
  | fragment children => exact fragment a [children]
  | rendered markup => exact .allocate a (.rendered markup)

theorem withChildren (e : Element) (children : List Handle) :
    Relaxes (Build.withChildren a e children) (Build.withChildren a e children) := by
  intro w w' h hrun
  rw [Build.perform_withChildren] at hrun ⊢
  rw [World.checkParts_unchecked]
  have hchecked : (if (w.unchecked.arena a).options.validate then
      w.checkParts a e.info 0 (children.map Part.node) else .ok ()) = .ok () := by
    split
    next hvalidate =>
      rw [if_pos (World.validate_of_unchecked hvalidate)] at hrun
      split at hrun
      next hok => exact hok
      next => cases hrun
    next => rfl
  rw [hchecked]
  split at hrun
  next => exact Relaxes.allocate a _ w w' h hrun
  next => cases hrun

theorem lines (site : CallSite) (value : String) (tab : Build.Tab) (separator : String) :
    Relaxes (Build.lines a site value tab separator)
      (Build.lines a site value tab separator) :=
  stepwise.lines (fun _ => .allocate a _) (fun _ => .observe fun _ => rfl)
    (element a site _ _ _) (fun _ => element a site _ _ _) value tab separator

end

end Relaxes

namespace Revision

variable (source dest : ArenaId)

theorem relaxes_materialize (replacement : Replacement) :
    Relaxes (materialize dest replacement) (materialize dest replacement) := by
  cases replacement with
  | stored handle => exact .pure handle
  | described description => exact .realize dest description

theorem relaxes_settle (node : Node) (h : Handle) (results : List (List Handle)) :
    Relaxes (settle dest node h results) (settle dest node h results) := by
  unfold settle
  split
  · exact .pure h
  · cases node with
    | element e => exact .withChildren dest e _
    | text value => exact .allocate dest _
    | fragment children => exact .allocate dest _
    | rendered markup => exact .allocate dest _

theorem relaxes_visit (visitor : Node → Handle → Nat → Change) (bound depth : Nat) (h : Handle) :
    Relaxes (visit source dest (fun n h d => pure (visitor n h d)) bound depth h)
      (visit source dest (fun n h d => pure (visitor n h d)) bound depth h) := by
  induction bound generalizing depth h with
  | zero => exact .throw _
  | succ bound ih =>
    rw [visit_eq]
    refine (Relaxes.resolve source h).bind fun node => ?_
    split
    next =>
      refine (Relaxes.stepwise.mapM fun child _ => ih (depth + 1) child).bind fun results => ?_
      exact (relaxes_settle dest node h results).bind fun kept => .pure [kept]
    next nodes _ =>
      exact Relaxes.stepwise.mapM fun replacement _ => relaxes_materialize dest replacement

theorem relaxes_revise (root : Handle) (visitor : Node → Handle → Nat → Change) :
    Relaxes (revise source dest root fun n h d => pure (visitor n h d))
      (revise source dest root fun n h d => pure (visitor n h d)) := by
  unfold revise
  simp only [monadLift_self]
  refine (Relaxes.link dest source).bind fun _ => ?_
  refine (Relaxes.observe fun _ => rfl).bind fun bound => ?_
  refine (relaxes_visit source dest visitor bound 0 root).bind fun results => ?_
  split
  · exact .pure _
  · exact .allocate dest _

/-- What replaces and filters nodes is a visitor like any other. -/
theorem replaceNodes_eq (root : Handle) (f : Node → Handle → Option Replacement) :
    replaceNodes (m := Action) source dest root (fun n h => pure (f n h)) =
      revise source dest root fun n h _ => pure ((f n h).elim .keep .replace) := by
  refine congrArg (revise source dest root) (funext fun n => funext fun h => funext fun _ => ?_)
  rw [pure_bind]
  cases f n h <;> rfl

theorem filterNodes_eq (root : Handle) (accepts : Node → Handle → Bool) :
    filterNodes (m := Action) source dest root (fun n h => pure (accepts n h)) =
      revise source dest root fun n h _ => pure (bif accepts n h then .keep else .remove) := by
  refine congrArg (revise source dest root) (funext fun n => funext fun h => funext fun _ => ?_)
  rw [pure_bind]
  cases accepts n h <;> rfl

end Revision

end MarkupArena
