import MarkupArena.Proofs.SoundMarkup
import MarkupArena.Proofs.Tracing

/-! Runs of building calls with and without construction tracing. Every call comes to the same; the
titles in the traced arena are those that the run without tracing tells of, and the events are those
of elements that had a title of their own. -/
namespace MarkupArena

/-- A call that builds a node. A copy is of the element that a handle resolves to; where there is
none, no call is made. -/
inductive BuildCall where
  | element (site : CallSite) (tag : String) (input : AttributeInput) (children : List Child)
  | text (value : String)
  | fragment (children : List Child)
  | rendered (markup : Rendered)
  | realize (description : Description)
  | withChildren (e : Element) (children : List Handle)
  | copy (h : Handle) (children : List Handle)
  | lines (site : CallSite) (value : String) (tab : Build.Tab) (separator : String)

/-- What was told to listeners so far. -/
def World.events (w : World) : List Event := w.log.toList.map Delivery.event

theorem World.events_tell (w : World) (listener : Option Listener) (event : Event) :
    (w.tell listener event).events = w.events ++ if listener.isSome then [event] else [] := by
  cases listener <;> simp [World.tell, World.deliver, World.events]

/-- The title of the slot that a handle of an arena names. -/
def titleAt (a : ArenaId) (titles : List (Option String)) (h : Handle) : Option String :=
  match h.arena, h.slot with
  | .count number, .count slot => if number = a.number then titles[slot]?.join else none
  | _, _ => none

namespace BuildCall

def make (a : ArenaId) : BuildCall → Action Handle
  | element site tag input children => Build.element a site tag input children
  | text value => Build.text a value
  | fragment children => Build.fragment a children
  | rendered markup => Build.rendered a markup
  | realize description => Build.realize a description
  | withChildren e children => Build.withChildren a e children
  | copy h children => do
    match ← resolve a h with
    | .element e => Build.withChildren a e children
    | _ => return h
  | lines site value tab separator => Build.lines a site value tab separator

/-- The title that tracing adds to a node that a call stores: the place of the call, if the node is
an element without a title, and for a copy the title that was added to what it copies. -/
def title (a : ArenaId) (titles : List (Option String)) : BuildCall → Node → Option String
  | element site .., node => Build.siteTitle (some site) node
  | lines site .., node => Build.siteTitle (some site) node
  | copy h _, .element _ => titleAt a titles h
  | _, _ => none

/-- The events of a call in an arena that traces construction: one for an element that passes all
checks and has a title of its own, if there is a listener. -/
def skips (a : ArenaId) (w : World) : BuildCall → List Event
  | element _ tag input children =>
    match w.accept a tag input (Child.listParts children) with
    | .ok (_, given) =>
      if (given.any fun other => other.name == Build.siteAttribute) && (w.arena a).listener.isSome
      then [.siteSkipped a tag] else []
    | .error _ => []
  | _ => []

/-- What calls come to, one after the other, whether or not those before them fail. -/
def outcomes (a : ArenaId) : List BuildCall → World → List (Except Failure Handle)
  | [], _ => []
  | call :: rest, w =>
    (perform (call.make a) w).1 :: outcomes a rest (perform (call.make a) w).2

def after (a : ArenaId) : List BuildCall → World → World
  | [], w => w
  | call :: rest, w => after a rest (perform (call.make a) w).2

/-- The titles that tracing adds in each slot, where some are known. -/
def titles (a : ArenaId) : List BuildCall → World → List (Option String) → List (Option String)
  | [], _, known => known
  | call :: rest, w, known =>
    let next := (perform (call.make a) w).2
    let new := (next.arena a).nodes.toList.drop (w.arena a).size
    titles a rest next (known ++ new.map (call.title a known))

def allSkips (a : ArenaId) : List BuildCall → World → List Event
  | [], _ => []
  | call :: rest, w => call.skips a w ++ allSkips a rest (perform (call.make a) w).2

end BuildCall

/-- The world in which one arena traces construction, or does not. -/
def World.tracing (w : World) (a : ArenaId) (on : Bool) : World :=
  w.modifyArena a fun arena =>
    { arena with options := { arena.options with traceConstruction := on } }

namespace Traced

variable {a : ArenaId} {titles : List (Option String)} {u v : World}

/-- A handle resolves to the same node, with the title of its slot. -/
theorem resolve_title (h : Traced a titles u v) {handle : Handle} {node : Node}
    (hnode : u.resolve a handle = .ok node) :
    v.resolve a handle = .ok (node.withTitle (titleAt a titles handle)) ∧
      ((titleAt a titles handle).isSome → node.Untitled) := by
  obtain ⟨b, -, hold⟩ := World.resolve_eq_ok_iff.mp hnode
  obtain ⟨node', hnode', -⟩ := (hnode ▸ h.like.resolve a handle).of_ok
  obtain ⟨c, -, hold'⟩ := World.resolve_eq_ok_iff.mp hnode'
  obtain rfl : c = b := ArenaId.number_injective
    (Coordinate.count.inj (hold'.arena_eq.symm.trans hold.arena_eq))
  obtain ⟨slot, copy, rfl, hslot⟩ := hold
  obtain ⟨slot', copy', heq, hslot'⟩ := hold'
  simp only [ArenaId.handle, Handle.mk.injEq, Coordinate.count.injEq, true_and] at heq
  obtain ⟨-, rfl, -⟩ := heq
  by_cases hc : c = a
  · subst hc
    rw [h.arena] at hslot'
    simp only [Arena.traced, List.getElem?_toArray, List.getElem?_zipWith_eq_some,
      Array.getElem?_toList, hslot, Option.some.injEq] at hslot'
    obtain ⟨title, found, htitle, rfl, rfl⟩ := hslot'
    have hat : titleAt c titles (c.handle (u.arena c).generation slot copy) = title := by
      simp [titleAt, ArenaId.handle, htitle]
    rw [hat]
    refine ⟨hnode', ?_⟩
    obtain ⟨hlt, rfl⟩ := List.getElem?_eq_some_iff.mp htitle
    obtain ⟨hlt', rfl⟩ := Array.getElem?_eq_some_iff.mp hslot
    exact h.untitled.get hlt hlt'
  · have hat : titleAt a titles (c.handle (u.arena c).generation slot copy) = none := by
      have hnumber : c.number ≠ a.number := fun hn => hc (ArenaId.number_injective hn)
      simp [titleAt, ArenaId.handle, hnumber]
    rw [h.others c hc, hslot] at hslot'
    rw [hat, Node.withTitle_none, Option.some.inj hslot']
    exact ⟨hnode', fun hnone => by cases hnone⟩

end Traced

/-- Each call comes to the same, and tracing adds the titles that the call tells of. -/
theorem BuildCall.records (call : BuildCall) {a : ArenaId} {titles : List (Option String)}
    {u v : World} (h : Traced a titles u v) :
    Records a titles (call.title a titles) u (perform (call.make a) u)
      (perform (call.make a) v) := by
  cases call with
  | element site tag input children => exact Marks.element site tag input children titles u v h
  | text value => exact Marks.allocate_unmarked rfl titles u v h
  | fragment children => exact Marks.fragment (fun _ => rfl) (fun _ => rfl) children titles u v h
  | rendered markup => exact Marks.allocate_unmarked rfl titles u v h
  | realize description => exact Marks.realize description titles u v h
  | withChildren e children =>
    have hsame : Marks a (fun _ => none) (Build.withChildren a e children)
        (Build.withChildren a (e.withTitle none) children) :=
      Marks.withChildren rfl fun htitle => by cases htitle
    rw [Element.withTitle_none] at hsame
    exact hsame titles u v h
  | copy handle children =>
    rw [make, perform_bind, perform_bind, resolve, perform_observe, perform_observe]
    cases hu : u.resolve a handle with
    | error f =>
      have hresolve := h.like.resolve a handle
      rw [hu] at hresolve
      rw [hresolve.of_error]
      exact Marks.unchanged h _
    | ok node =>
      obtain ⟨hv, huntitled⟩ := h.resolve_title hu
      rw [hv]
      cases node with
      | element e =>
        exact Marks.withChildren rfl huntitled titles u v h
      | _ => exact Marks.unchanged h _
  | lines site value tab separator => exact Marks.lines site value tab separator titles u v h

namespace BuildCall

/-- Runs of calls go side by side. -/
theorem traced_after {a : ArenaId} (calls : List BuildCall) {known : List (Option String)}
    {u v : World} (h : Traced a known u v) :
    outcomes a calls v = outcomes a calls u ∧
      Traced a (titles a calls u known) (after a calls u) (after a calls v) := by
  induction calls generalizing known u v with
  | nil => exact ⟨rfl, h⟩
  | cons call rest ih =>
    obtain ⟨houtcome, new, hnodes, htraced⟩ := call.records h
    have hnew : ((perform (call.make a) u).2.arena a).nodes.toList.drop (u.arena a).size = new := by
      rw [hnodes]
      exact List.drop_left' (by simp [Arena.size])
    obtain ⟨houtcomes, hafter⟩ := ih htraced
    refine ⟨?_, ?_⟩
    · rw [outcomes, outcomes, houtcome, houtcomes]
    · rw [titles, hnew]
      exact hafter

/-! The events of a call. -/

theorem events_announce (w : World) (a : ArenaId) (site : Option CallSite) (tag : String)
    (given : List Attribute) : (Build.announce w a site tag given).events = w.events ++
      if site.isSome && (given.any fun other => other.name == Build.siteAttribute) &&
        (w.arena a).listener.isSome then [.siteSkipped a tag] else [] := by
  unfold Build.announce
  cases site.isSome && given.any fun other => other.name == Build.siteAttribute
  · simp
  · simp [World.events_tell]

section
variable {a : ArenaId} {events : List Event}

theorem quiet_allocate (node : Node) :
    Invariant (fun w => w.events = events) (allocate a node) := by
  intro w hw
  refine ⟨?_, fun _ _ => True.intro⟩
  exact allocate_leaves (P := fun w => w.events = events) hw fun _ => hw

theorem quiet_fragment (children : List Child) :
    Invariant (fun w => w.events = events) (Build.fragment a children) :=
  (stepwise_invariant _).fragment (fun _ => quiet_allocate _) (fun _ => quiet_allocate _) children

/-- Of an element, only what is told before it is stored is told. -/
theorem events_elementAt (w : World) (site : Option CallSite) (tag : String)
    (input : AttributeInput) (children : List Child) :
    (perform (Build.elementAt a site tag input children) w).2.events =
      match w.accept a tag input (Child.listParts children) with
      | .ok (_, given) => (Build.announce w a site tag given).events
      | .error _ => w.events := by
  rw [Build.perform_elementAt]
  rcases w.accept a tag input (Child.listParts children) with f | ⟨info, given⟩
  · rfl
  · have hplace : Invariant (fun u => u.events = (Build.announce w a site tag given).events)
        (Build.place a info (Build.withSite site given) (Child.listParts children)) :=
      (Build.invariant_storeAll (fun _ => quiet_allocate _) _).bind fun _ _ => quiet_allocate _
    exact (hplace _ rfl).1

theorem quiet_elementAt (tag : String) (input : AttributeInput) (children : List Child) :
    Invariant (fun w => w.events = events) (Build.elementAt a none tag input children) := by
  intro w hw
  refine ⟨?_, fun _ _ => True.intro⟩
  dsimp only
  rw [events_elementAt]
  split <;> exact hw

/-- An element that is given no title causes no event. -/
theorem quiet_element (site : CallSite) {tag : String} {input : AttributeInput}
    (given : List Attribute) (hgiven : input.normalize tag = .ok given)
    (htitle : (given.any fun other => other.name == Build.siteAttribute) = false)
    (children : List Child) :
    Invariant (fun w => w.events = events) (Build.element a site tag input children) := by
  intro w hw
  refine ⟨?_, fun _ _ => True.intro⟩
  dsimp only
  rw [Build.perform_element, events_elementAt]
  rcases haccept : w.accept a tag input (Child.listParts children) with f | ⟨info, given'⟩
  · exact hw
  · obtain ⟨-, hnormalize, -⟩ := World.accept_ok haccept
    obtain rfl := Except.ok.inj (hgiven.symm.trans hnormalize)
    simp only [Build.announce, htitle, Bool.and_false, Bool.false_eq_true, if_false]
    exact hw

theorem quiet_lines (site : CallSite) (value : String) (tab : Build.Tab) (separator : String) :
    Invariant (fun w => w.events = events) (Build.lines a site value tab separator) :=
  (stepwise_invariant _).lines (fun _ => quiet_allocate _) (fun _ => invariant_observe)
    (quiet_element site [] rfl rfl []) (quiet_element site [⟨"class", "soft_pre"⟩] rfl rfl) value
    tab separator

theorem quiet_withChildren (e : Element) (children : List Handle) :
    Invariant (fun w => w.events = events) (Build.withChildren a e children) := by
  intro w hw
  rw [Build.perform_withChildren]
  split
  · exact quiet_allocate _ w hw
  · exact ⟨hw, fun _ _ => True.intro⟩

end

theorem events_make (call : BuildCall) (a : ArenaId) (w : World) :
    (perform (call.make a) w).2.events = w.events ++
      if (w.arena a).options.traceConstruction then call.skips a w else [] := by
  have hquiet : Invariant (fun u => u.events = w.events) (call.make a) → call.skips a w = [] →
      (perform (call.make a) w).2.events = w.events ++
        if (w.arena a).options.traceConstruction then call.skips a w else [] := by
    intro hmake hskips
    rw [(hmake w rfl).1, hskips]
    simp
  cases call with
  | element site tag input children =>
    rw [make, Build.perform_element, events_elementAt, skips]
    rcases w.accept a tag input (Child.listParts children) with f | ⟨info, given⟩
    · simp
    · simp only [events_announce]
      cases (w.arena a).options.traceConstruction <;> simp
  | text value => exact hquiet (quiet_allocate _) rfl
  | fragment children => exact hquiet (quiet_fragment children) rfl
  | rendered markup => exact hquiet (quiet_allocate _) rfl
  | realize description =>
    refine hquiet ?_ rfl
    cases description with
    | element tag input children => exact quiet_elementAt tag input [children]
    | text value => exact quiet_allocate _
    | fragment children => exact quiet_fragment [children]
    | rendered markup => exact quiet_allocate _
  | withChildren e children => exact hquiet (quiet_withChildren e children) rfl
  | copy h children =>
    refine hquiet (invariant_observe.bind fun node _ => ?_) rfl
    split
    · exact quiet_withChildren _ children
    · exact Invariant.pure _
  | lines site value tab separator => exact hquiet (quiet_lines site value tab separator) rfl

theorem skips_eq (call : BuildCall) {a : ArenaId} {known : List (Option String)} {u v : World}
    (h : Traced a known u v) : call.skips a v = call.skips a u := by
  cases call with
  | element site tag input children =>
    rw [skips, skips, h.like.accept_eq (fun _ _ h => h) h.validate_eq, h.arena]
    rfl
  | _ => rfl

/-- Calls without tracing cause no events; with tracing, those that they tell of. -/
theorem events_after {a : ArenaId} (calls : List BuildCall) {known : List (Option String)}
    {u v : World} (h : Traced a known u v) :
    (after a calls u).events = u.events ∧
      (after a calls v).events = v.events ++ allSkips a calls u := by
  induction calls generalizing known u v with
  | nil => exact ⟨rfl, (List.append_nil _).symm⟩
  | cons call rest ih =>
    obtain ⟨-, new, -, htraced⟩ := call.records h
    obtain ⟨hoff, hon⟩ := ih htraced
    have htraces : (v.arena a).options.traceConstruction = true := by
      rw [h.arena]
      rfl
    refine ⟨?_, ?_⟩
    · rw [after, hoff, events_make, h.off]
      simp
    · rw [after, hon, events_make, htraces, call.skips_eq h, allSkips]
      simp

theorem traced_tracing {w : World} {a : ArenaId} (ha : w.Opened a) :
    Traced a (List.replicate (w.arena a).size none) (w.tracing a false) (w.tracing a true) := by
  have harena : ∀ on, (w.tracing a on).arena a =
      { w.arena a with options := { (w.arena a).options with traceConstruction := on } } :=
    fun on => w.arena_modifyArena_self a _ ha
  have hnone : ∀ nodes : List Node,
      List.zipWith Node.withTitle (List.replicate nodes.length none) nodes = nodes := by
    intro nodes
    induction nodes with
    | nil => rfl
    | cons node rest ih => simpa [List.replicate_succ] using ih
  refine ⟨World.opened_modifyArena.mpr ha, ?_, ?_, rfl, ?_, ?_, ?_⟩
  · rw [harena]
  · simp [World.tracing, World.modifyArena]
  · intro b hb
    rw [World.tracing, World.tracing, w.arena_modifyArena_of_ne _ hb,
      w.arena_modifyArena_of_ne _ hb]
  · rw [harena, harena, Arena.traced]
    have hnodes := hnone (w.arena a).nodes.toList
    rw [Array.length_toList] at hnodes
    simp only [Arena.size, hnodes, Array.toArray_toList]
  · rw [harena]
    refine List.forall₂_iff_get.mpr ⟨by simp [Arena.size], fun i hi _ htitle => ?_⟩
    simp at htitle

/-- Tracing only adds titles, whatever the schema of the arena allows. Every call has the same
outcome, and the arena ends up the same but for titles in the last place of elements that were given
none. Listeners hear of the elements that were given one, and of nothing else. -/
theorem tracing_adds_titles {w : World} {a : ArenaId} (ha : w.Opened a) (calls : List BuildCall) :
    let off := after a calls (w.tracing a false)
    let on := after a calls (w.tracing a true)
    let added := titles a calls (w.tracing a false) (List.replicate (w.arena a).size none)
    outcomes a calls (w.tracing a true) = outcomes a calls (w.tracing a false) ∧
      on.arena a = (off.arena a).traced added ∧
      List.Forall₂ (fun title node => title.isSome → node.Untitled) added
        (off.arena a).nodes.toList ∧
      (∀ b, b ≠ a → on.arena b = off.arena b) ∧ off.events = w.events ∧
      on.events = w.events ++ allSkips a calls (w.tracing a false) := by
  have htraced := traced_tracing ha
  obtain ⟨houtcomes, hafter⟩ := traced_after calls htraced
  obtain ⟨hoff, hon⟩ := events_after calls htraced
  exact ⟨houtcomes, hafter.arena, hafter.untitled, hafter.others, hoff, hon⟩

/-- A paragraph, made without a title. -/
def bareParagraph : BuildCall := .element ⟨[], []⟩ "p" .empty []

theorem tracing_adds_titles_bareParagraph : prosePage.Opened ⟨0⟩ ∧
    prose.checkAttribute "p" "title" ≠ .ok () ∧
    ((after ⟨0⟩ [bareParagraph] (prosePage.tracing ⟨0⟩ true)).arena ⟨0⟩).nodes =
      #[.element ⟨paragraph, [⟨"title", "Generated at:\n"⟩], []⟩] := by
  have hopened : prosePage.Opened ⟨0⟩ := by decide
  refine ⟨hopened, by decide, ?_⟩
  obtain ⟨-, harena, -⟩ := tracing_adds_titles hopened [bareParagraph]
  rw [harena]
  rfl

end BuildCall

end MarkupArena
