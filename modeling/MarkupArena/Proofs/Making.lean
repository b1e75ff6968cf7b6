import MarkupArena.Build.Lines
import MarkupArena.Proofs.Steps
import MarkupArena.Proofs.Work

/-! What the making of nodes comes to: one statement for each operation, which says when it fails
and what it stores. -/
namespace MarkupArena

theorem perform_resolveAll (w : World) (a : ArenaId) (handles : List Handle) :
    perform (handles.forM fun h => discard (resolve a h)) w =
      (handles.forM fun h => discard (w.resolve a h), w) := by
  simp only [List.forM_eq_forM]
  induction handles with
  | nil => rfl
  | cons h rest ih =>
    rw [List.forM_cons, List.forM_cons, perform_bind, perform_discard, resolve, perform_observe]
    cases w.resolve a h with
    | error f => rfl
    | ok node => exact ih

theorem resolveAll_eq_ok_iff {w : World} {a : ArenaId} {handles : List Handle} :
    (handles.forM fun h => discard (w.resolve a h)) = .ok () ↔
      ∀ h ∈ handles, ∃ node, w.resolve a h = .ok node := by
  rw [forM_eq_ok_iff]
  refine forall_congr' fun h => imp_congr_right fun _ => ?_
  cases w.resolve a h with
  | error f => exact ⟨fun hd => (by cases hd), fun ⟨_, hr⟩ => (by cases hr)⟩
  | ok node => exact ⟨fun _ => ⟨node, rfl⟩, fun _ => rfl⟩

theorem perform_allocate (w : World) (a : ArenaId) (node : Node) :
    perform (allocate a node) w =
      match (w.arena a).exceededLimit? with
      | some limit => (.error (.budgetExceeded limit ((w.arena a).size + 1)), w)
      | none =>
        match node.children.forM fun child => discard (w.resolve a child) with
        | .ok _ => (.ok ((w.store a node).lastHandle a), w.store a node)
        | .error f => (.error f, w) := by
  unfold allocate
  rw [perform_bind]
  simp only [perform_get]
  cases (w.arena a).exceededLimit? with
  | some limit => rfl
  | none =>
    simp only [perform_bind, perform_resolveAll]
    cases node.children.forM fun child => discard (w.resolve a child) <;> rfl

theorem allocate_error {w w' : World} {a : ArenaId} {node : Node} {f : Failure}
    (h : perform (allocate a node) w = (.error f, w')) : w' = w := by
  rw [perform_allocate] at h
  split at h
  · exact (Prod.mk.inj h).2.symm
  · split at h
    · simp at h
    · exact (Prod.mk.inj h).2.symm

theorem allocate_ok {w w' : World} {a : ArenaId} {node : Node} {handle : Handle}
    (h : perform (allocate a node) w = (.ok handle, w')) :
    handle = (w.store a node).lastHandle a ∧ w' = w.store a node ∧
      ∀ child ∈ node.children, ∃ n, w.resolve a child = .ok n := by
  rw [perform_allocate] at h
  split at h
  · simp at h
  · split at h
    next hall =>
      obtain ⟨hhandle, hw⟩ := Prod.mk.inj h
      exact ⟨(Except.ok.inj hhandle).symm, hw.symm, resolveAll_eq_ok_iff.mp hall⟩
    next => simp at h

theorem allocate_of_resolves {w : World} {a : ArenaId} {node : Node}
    (hlimit : (w.arena a).exceededLimit? = none)
    (hall : ∀ child ∈ node.children, ∃ n, w.resolve a child = .ok n) :
    perform (allocate a node) w = (.ok ((w.store a node).lastHandle a), w.store a node) := by
  rw [perform_allocate, hlimit]
  simp only [resolveAll_eq_ok_iff.mpr hall]

/-- The making of a node leaves the world as it was, or with the node stored. -/
theorem allocate_leaves {P : World → Prop} {w : World} {a : ArenaId} {node : Node} (hw : P w)
    (hstore : (∀ child ∈ node.children, ∃ n, w.resolve a child = .ok n) → P (w.store a node)) :
    P (perform (allocate a node) w).2 := by
  rcases h : perform (allocate a node) w with ⟨f | handle, w'⟩
  · rw [allocate_error h]
    exact hw
  · obtain ⟨-, rfl, hall⟩ := allocate_ok h
    exact hstore hall

/-- What stands the elementary changes that add to a world stands the making of a node. -/
theorem invariant_allocate {inv : World → Prop} (hinv : ∀ w w', World.Growth w w' → inv w → inv w')
    (a : ArenaId) (node : Node) : Invariant inv (allocate a node) := by
  intro w hw
  refine ⟨?_, fun _ _ => True.intro⟩
  exact allocate_leaves hw fun hall => hinv w _ (World.growth_store hall) hw

/-- A link that is there already changes nothing; a new one is added, and told of. -/
theorem perform_link_cases (w : World) (a source : ArenaId) :
    (source = a ∨ w.LinkedTo a source) ∧ perform (link a source) w = (.ok ⟨⟩, w) ∨
    ¬ (source = a ∨ w.LinkedTo a source) ∧ perform (link a source) w = (.ok ⟨⟩,
      (w.modifyArena a (·.addLink source)).tell (w.arena a).listener (.link a source)) := by
  by_cases hknown : source = a ∨ w.LinkedTo a source
  · exact .inl ⟨hknown, congrArg (Prod.mk _) (if_pos hknown)⟩
  · exact .inr ⟨hknown, congrArg (Prod.mk _) (if_neg hknown)⟩

theorem World.opened_link (w : World) (a source b : ArenaId) :
    (perform (link a source) w).2.Opened b ↔ w.Opened b := by
  rcases perform_link_cases w a source with ⟨-, hrun⟩ | ⟨-, hrun⟩
  · rw [hrun]
  · rw [hrun, World.opened_congr (World.arenas_tell ..), World.opened_modifyArena]

/-- A link leads to its source, unless an arena is to be linked to itself. -/
theorem World.linkedTo_link_iff {w : World} {a b c source : ArenaId} :
    (perform (link a source) w).2.LinkedTo b c ↔
      w.LinkedTo b c ∨ w.Opened b ∧ b ≠ c ∧ (b, c) = (a, source) := by
  rcases perform_link_cases w a source with ⟨hknown, hrun⟩ | ⟨hnew, hrun⟩
  · rw [hrun]
    constructor
    · exact .inl
    · rintro (hlink | ⟨-, hne, hcall⟩)
      · exact hlink
      · obtain ⟨rfl, rfl⟩ := Prod.mk.inj hcall
        exact hknown.resolve_left hne.symm
  · have hne : a ≠ source := fun he => hnew (.inl he.symm)
    unfold World.LinkedTo
    rw [hrun, World.arena_congr (World.arenas_tell ..), World.arena_modifyArena]
    by_cases hb : a = b ∧ w.Opened b
    · rw [if_pos hb]
      simp only [Arena.addLink, List.mem_append, List.mem_singleton, Prod.mk.injEq]
      grind
    · rw [if_neg hb]
      grind

/-- Linking an arena to another brings it within reach. -/
theorem perform_link_reaches {w : World} {a : ArenaId} (ha : w.Opened a) (source : ArenaId) :
    ∃ w', perform (link a source) w = (.ok ⟨⟩, w') ∧ World.Grows w w' ∧ w'.InReach a source := by
  rcases perform_link_cases w a source with ⟨hknown, hrun⟩ | ⟨-, hrun⟩
  · refine ⟨w, hrun, .refl w, ?_⟩
    rcases hknown with rfl | hlink
    · exact .refl
    · exact .single hlink
  · refine ⟨_, hrun, ?_, .single ?_⟩
    · have hlink := (World.Growth.link (w := w) a source).grows
      exact hlink.trans (World.Growth.aside (World.arenas_tell ..) (World.stored_tell ..).ge).grows
    · unfold World.LinkedTo
      rw [World.arena_congr (World.arenas_tell ..), World.arena_modifyArena_self w a _ ha]
      exact List.mem_append_right _ (List.mem_singleton.mpr rfl)

/-- Work that, begun in a world grown from `w₀`, only adds to it, and has results with a property
that lasts while the world grows. -/
def Yields {α : Type} (w₀ : World) (post : World → α → Prop) (work : Action α) : Prop :=
  ∀ w w' x, World.Grows w₀ w → perform work w = (.ok x, w') →
    World.Grows w w' ∧ ∀ later, World.Grows w' later → post later x

section
variable {α β : Type} {w₀ : World} {post : World → α → Prop}

theorem Yields.pure {x : α} (h : ∀ w, World.Grows w₀ w → post w x) :
    Yields w₀ post (pure x : Action α) := by
  intro w w' y hw hrun
  obtain ⟨hx, rfl⟩ := Prod.mk.inj hrun
  obtain rfl := Except.ok.inj hx
  exact ⟨.refl w, fun later hlater => h later (hw.trans hlater)⟩

theorem Yields.weaken {post' : World → α → Prop} {work : Action α} (hy : Yields w₀ post work)
    (h : ∀ w x, World.Grows w₀ w → post w x → post' w x) : Yields w₀ post' work := by
  intro w w' x hw hrun
  obtain ⟨hgrow, hpost⟩ := hy w w' x hw hrun
  exact ⟨hgrow, fun later hlater =>
    h later x (hw.trans (hgrow.trans hlater)) (hpost later hlater)⟩

theorem Yields.bind {post' : World → β → Prop} {work : Action α} {next : α → Action β}
    (hwork : Yields w₀ post work)
    (hnext : ∀ x, Yields w₀ (fun w y => post w x → post' w y) (next x)) :
    Yields w₀ post' (work >>= next) := by
  intro w w' y hw hrun
  rw [perform_bind] at hrun
  rcases hfirst : perform work w with ⟨f | x, w₁⟩
  · simp [hfirst] at hrun
  · rw [hfirst] at hrun
    obtain ⟨hgrow₁, hpost⟩ := hwork w w₁ x hw hfirst
    obtain ⟨hgrow₂, hpost'⟩ := hnext x w₁ w' y (hw.trans hgrow₁) hrun
    exact ⟨hgrow₁.trans hgrow₂, fun later hlater =>
      hpost' later hlater (hpost later (hgrow₂.trans hlater))⟩

/-- Work whose result is known and that changes nothing. -/
theorem Yields.after {post : World → β → Prop} {work : Action α} {next : α → Action β} {x : α}
    (hwork : ∀ w, World.Grows w₀ w → perform work w = (.ok x, w))
    (hnext : Yields w₀ post (next x)) : Yields w₀ post (work >>= next) := by
  intro w w' y hw hrun
  rw [perform_bind, hwork w hw] at hrun
  exact hnext w w' y hw hrun

theorem Yields.mapM {post : α → World → β → Prop} {f : α → Action β} {l : List α}
    (h : ∀ x ∈ l, Yields w₀ (post x) (f x)) :
    Yields w₀ (fun w results => List.Forall₂ (fun x y => post x w y) l results) (l.mapM f) := by
  induction l with
  | nil => exact Yields.pure fun _ _ => .nil
  | cons x rest ih =>
    rw [List.mapM_cons]
    refine (h x List.mem_cons_self).bind fun y => ?_
    refine (ih fun z hz => h z (List.mem_cons_of_mem _ hz)).bind fun ys => ?_
    exact Yields.pure fun w _ hrest hfirst => .cons hfirst hrest

/-- A node that was stored resolves from then on. -/
theorem yields_allocate {a : ArenaId} (ha : w₀.Opened a) (node : Node) :
    Yields w₀ (fun w h => w.Holds a h node) (allocate a node) := by
  intro w w' h hw hrun
  obtain ⟨rfl, rfl, -⟩ := allocate_ok hrun
  exact ⟨w.grows_store a node, fun later hlater =>
    (World.holds_lastHandle (hw.opened a ha) node).grow hlater⟩

end

/-- No arena is opened by storing a node. -/
theorem invariant_unopened (a b : ArenaId) (node : Node) :
    Invariant (fun w => ¬ w.Opened b) (allocate a node) := by
  intro w hb
  refine ⟨?_, fun _ _ => True.intro⟩
  exact allocate_leaves (P := fun w => ¬ w.Opened b) hb fun _ => World.opened_store.not.mpr hb

theorem Schema.lookup_eq_ok_iff {schema : Schema} {tag : String} {info : TagInfo} :
    schema.lookup tag = .ok info ↔ schema.find? tag = some info := by
  unfold lookup
  cases schema.find? tag <;> simp

/-- What an element of a tag is made with, if all checks pass. -/
def World.accept (w : World) (a : ArenaId) (tag : String) (input : AttributeInput)
    (parts : List Part) : Except Failure (TagInfo × List Attribute) := do
  let options := (w.arena a).options
  let info ← (options.schema.lookup tag).mapError fun why => .rejected why none
  let given ← (input.normalize tag).mapError fun why => .rejected why none
  if options.validate then
    World.checkAttributes options.schema tag given
    w.checkParts a info 0 parts
  return (info, given)

theorem World.accept_ok {w : World} {a : ArenaId} {tag : String} {input : AttributeInput}
    {parts : List Part} {info : TagInfo} {given : List Attribute}
    (h : w.accept a tag input parts = .ok (info, given)) :
    (w.arena a).options.schema.find? tag = some info ∧ input.normalize tag = .ok given ∧
      ((w.arena a).options.validate →
        World.checkAttributes (w.arena a).options.schema tag given = .ok () ∧
        w.checkParts a info 0 parts = .ok ()) := by
  unfold World.accept at h
  obtain ⟨info', hinfo, h⟩ := bind_eq_ok_iff.mp h
  obtain ⟨given', hgiven, h⟩ := bind_eq_ok_iff.mp h
  rw [mapError_eq_ok_iff] at hinfo hgiven
  rw [Schema.lookup_eq_ok_iff] at hinfo
  have hchecks : (info', given') = (info, given) ∧ ((w.arena a).options.validate →
      World.checkAttributes (w.arena a).options.schema tag given' = .ok () ∧
      w.checkParts a info' 0 parts = .ok ()) := by
    split at h
    next =>
      obtain ⟨_, hattributes, h⟩ := bind_eq_ok_iff.mp h
      obtain ⟨_, hparts, h⟩ := bind_eq_ok_iff.mp h
      exact ⟨Except.ok.inj h, fun _ => ⟨hattributes, hparts⟩⟩
    next hnot => exact ⟨Except.ok.inj h, fun hvalidate => absurd hvalidate hnot⟩
  obtain ⟨heq, hvalidate⟩ := hchecks
  obtain ⟨rfl, rfl⟩ := Prod.mk.inj heq
  exact ⟨hinfo, hgiven, hvalidate⟩

/-- A property of work that passes from the steps of work to the whole of it. -/
structure Stepwise (P : (α : Type) → Action α → Prop) : Prop where
  pure : ∀ {α : Type} (x : α), P α (pure x)
  bind : ∀ {α β : Type} {work : Action α} {next : α → Action β},
    P α work → (∀ x, P β (next x)) → P β (work >>= next)

namespace Stepwise

variable {P : (α : Type) → Action α → Prop} (hP : Stepwise P)
include hP

theorem mapM {α β : Type} {f : α → Action β} {l : List α} (h : ∀ x ∈ l, P β (f x)) :
    P (List β) (l.mapM f) := by
  induction l with
  | nil => exact hP.pure []
  | cons x rest ih =>
    rw [List.mapM_cons]
    refine hP.bind (h x List.mem_cons_self) fun y => ?_
    refine hP.bind (ih fun z hz => h z (List.mem_cons_of_mem _ hz)) fun ys => ?_
    exact hP.pure (y :: ys)

section
variable {a : ArenaId} (htext : ∀ value, P Handle (allocate a (.text value)))
include htext

theorem storeAll (parts : List Part) : P (List Handle) (parts.mapM (Build.store a)) := by
  refine hP.mapM fun part _ => ?_
  cases part with
  | text value => exact htext value
  | node h => exact hP.pure h

theorem fragment (hfragment : ∀ handles, P Handle (allocate a (.fragment handles)))
    (children : List Child) : P Handle (Build.fragment a children) :=
  hP.bind (hP.storeAll htext _) hfragment

theorem storeLine {site : CallSite} (hbreak : P Handle (Build.element a site "br" .empty []))
    (line : List Char) : P (List Handle) (Build.storeLine a site line) := by
  unfold Build.storeLine
  have hline : ∀ before : List Handle, P (List Handle) (do
      let lineBreak ← Build.element a site "br" .empty []
      return before ++ [lineBreak]) := fun before => hP.bind hbreak fun h => hP.pure (before ++ [h])
  dsimp only
  split
  · exact hP.bind (hP.pure []) hline
  · exact hP.bind (htext _) fun h => hP.bind (hP.pure [h]) hline

/-- Lines of text take breaks, and one element around them. -/
theorem lines (hlook : ∀ {α : Type} (outcome : Except Failure α), P α (observe fun _ => outcome))
    {site : CallSite} (hbreak : P Handle (Build.element a site "br" .empty []))
    (haround : ∀ children, P Handle
      (Build.element a site "div" (.record [("class", .text "soft_pre")]) children))
    (value : String) (tab : Build.Tab) (separator : String) :
    P Handle (Build.lines a site value tab separator) := by
  unfold Build.lines
  refine hP.bind (hlook _) fun count => ?_
  refine hP.bind (hP.mapM fun line _ => ?_) fun stored => haround _
  exact hP.bind (hlook _) fun expanded => hP.storeLine htext hbreak expanded

end

end Stepwise

theorem stepwise_invariant (inv : World → Prop) :
    Stepwise fun _ (work : Action _) => Invariant inv work where
  pure _ := Invariant.pure _
  bind hwork hnext := hwork.bind fun x _ => hnext x

namespace Build

/-- The attributes an element stores, with its call site if one is to be recorded. -/
def withSite (site : Option CallSite) (given : List Attribute) : List Attribute :=
  match site with
  | some site =>
    if given.any fun other => other.name == siteAttribute then given
    else given ++ [⟨siteAttribute, site.title⟩]
  | none => given

/-- The event that an element keeps a title of its own, where a call site is to be recorded. -/
def announce (w : World) (a : ArenaId) (site : Option CallSite) (tag : String)
    (given : List Attribute) : World :=
  if site.isSome && given.any fun other => other.name == siteAttribute then
    w.tell (w.arena a).listener (.siteSkipped a tag)
  else w

/-- Stores the text parts and then the element. -/
def place (a : ArenaId) (info : TagInfo) (attributes : List Attribute) (parts : List Part) :
    Action Handle := do
  let handles ← parts.mapM (store a)
  allocate a (.element ⟨info, attributes, handles⟩)

@[simp] theorem arenas_announce (w : World) (a : ArenaId) (site : Option CallSite) (tag : String)
    (given : List Attribute) : (announce w a site tag given).arenas = w.arenas := by
  unfold announce
  split
  · exact w.arenas_tell _ _
  · rfl

@[simp] theorem stored_announce (w : World) (a : ArenaId) (site : Option CallSite) (tag : String)
    (given : List Attribute) : (announce w a site tag given).stored = w.stored := by
  unfold announce
  split
  · exact w.stored_tell _ _
  · rfl

@[simp] theorem pools_announce (w : World) (a : ArenaId) (site : Option CallSite) (tag : String)
    (given : List Attribute) : (announce w a site tag given).pools = w.pools := by
  unfold announce
  split
  · exact w.pools_tell _ _
  · rfl

theorem perform_recordSite (w : World) (a : ArenaId) (tag : String) (site : CallSite)
    (given : List Attribute) : perform (recordSite a tag site given) w =
      (.ok (withSite (some site) given), announce w a (some site) tag given) := by
  unfold recordSite withSite announce
  cases given.any fun other => other.name == siteAttribute <;> rfl

/-- An element is checked in full before anything else happens. -/
theorem perform_elementAt (w : World) (a : ArenaId) (site : Option CallSite) (tag : String)
    (input : AttributeInput) (children : List Child) :
    perform (elementAt a site tag input children) w =
      match w.accept a tag input (Child.listParts children) with
      | .ok (info, given) =>
        perform (place a info (withSite site given) (Child.listParts children))
          (announce w a site tag given)
      | .error f => (.error f, w) := by
  have hplace : ∀ info given, perform (do
        let attributes ← match site with
          | some site => recordSite a tag site given
          | none => pure given
        let handles ← (Child.listParts children).mapM (store a)
        allocate a (.element ⟨info, attributes, handles⟩)) w =
      perform (place a info (withSite site given) (Child.listParts children))
        (announce w a site tag given) := by
    intro info given
    cases site with
    | none => rfl
    | some site =>
      rw [perform_bind, perform_recordSite]
      rfl
  unfold elementAt World.accept refuse
  rw [perform_bind]
  simp only [perform_get, perform_bind, perform_observe]
  cases (w.arena a).options.schema.lookup tag with
  | error why => rfl
  | ok info =>
    cases input.normalize tag with
    | error why => rfl
    | ok given =>
      cases (w.arena a).options.validate with
      | false => exact hplace info given
      | true =>
        simp only [mapError_ok, if_true, perform_bind, perform_observe]
        show _ = match (World.checkAttributes (w.arena a).options.schema tag given >>= fun _ =>
          w.checkParts a info 0 (Child.listParts children) >>= fun _ => pure (info, given)) with
          | .ok (info, given) => _
          | .error f => _
        cases World.checkAttributes (w.arena a).options.schema tag given with
        | error f => rfl
        | ok =>
          simp only
          cases w.checkParts a info 0 (Child.listParts children) with
          | error f => rfl
          | ok => exact hplace info given

theorem growth_announce (w : World) (a : ArenaId) (site : Option CallSite) (tag : String)
    (given : List Attribute) : World.Growth w (announce w a site tag given) :=
  .aside (arenas_announce ..) (stored_announce ..).ge

/-- An arena that traces construction has the call site recorded. -/
theorem perform_element (w : World) (a : ArenaId) (site : CallSite) (tag : String)
    (input : AttributeInput) (children : List Child) :
    perform (element a site tag input children) w =
      perform (elementAt a (if (w.arena a).options.traceConstruction then some site else none) tag
        input children) w := rfl

/-- The handle under which an arena holds a part: a node that is there already keeps its own. -/
def Placed (w : World) (a : ArenaId) : Part → Handle → Prop
  | .text value, h => w.Holds a h (.text value)
  | .node handle, h => h = handle

theorem yields_store {w₀ : World} {a : ArenaId} (ha : w₀.Opened a) (part : Part) :
    Yields w₀ (fun w h => Placed w a part h) (store a part) := by
  cases part with
  | text value => exact yields_allocate ha _
  | node h => exact Yields.pure fun _ _ => rfl

/-- Parts are stored in order, each under a handle of its own. -/
theorem yields_storeAll {w₀ : World} {a : ArenaId} (ha : w₀.Opened a) (parts : List Part) :
    Yields w₀ (fun w handles => List.Forall₂ (Placed w a) parts handles)
      (parts.mapM (store a)) :=
  Yields.mapM fun part _ => yields_store ha part

/-- What stands the making of text nodes stands the storing of parts. -/
theorem invariant_storeAll {inv : World → Prop} {a : ArenaId}
    (htext : ∀ value, Invariant inv (allocate a (.text value))) (parts : List Part) :
    Invariant inv (parts.mapM (store a)) :=
  (stepwise_invariant inv).storeAll htext parts

theorem yields_fragment {w₀ : World} {a : ArenaId} (ha : w₀.Opened a) (children : List Child) :
    Yields w₀ (fun w h => ∃ handles, List.Forall₂ (Placed w a) (Child.listParts children) handles ∧
      w.Holds a h (.fragment handles)) (fragment a children) :=
  (yields_storeAll ha _).bind fun handles =>
    (yields_allocate ha _).weaken fun _ _ _ hhold hplaced => ⟨handles, hplaced, hhold⟩

/-- An element is stored with the rules of its tag, the attributes that were given, and the parts
that were given, in order. -/
theorem yields_elementAt {w₀ : World} {a : ArenaId} (ha : w₀.Opened a) (site : Option CallSite)
    (tag : String) (input : AttributeInput) (children : List Child) :
    Yields w₀ (fun w h => ∃ info given handles,
      (w₀.arena a).options.schema.find? tag = some info ∧ input.normalize tag = .ok given ∧
      List.Forall₂ (Placed w a) (Child.listParts children) handles ∧
      w.Holds a h (.element ⟨info, withSite site given, handles⟩))
      (elementAt a site tag input children) := by
  intro w w' h hw hrun
  rw [perform_elementAt] at hrun
  rcases haccept : w.accept a tag input (Child.listParts children) with f | ⟨info, given⟩
  · simp [haccept] at hrun
  · simp only [haccept] at hrun
    obtain ⟨hinfo, hgiven, -⟩ := World.accept_ok haccept
    rw [hw.options ha] at hinfo
    have hannounce := (growth_announce w a site tag given).grows
    have hplace := (yields_storeAll ha (Child.listParts children)).bind fun handles =>
      (yields_allocate ha (.element ⟨info, withSite site given, handles⟩)).weaken
        fun w h _ hhold hplaced =>
          (⟨info, given, handles, hinfo, hgiven, hplaced, hhold⟩ : ∃ info given handles,
            (w₀.arena a).options.schema.find? tag = some info ∧ input.normalize tag = .ok given ∧
            List.Forall₂ (Placed w a) (Child.listParts children) handles ∧
            w.Holds a h (.element ⟨info, withSite site given, handles⟩))
    obtain ⟨hgrow, hpost⟩ := hplace _ w' h (hw.trans hannounce) hrun
    exact ⟨hannounce.trans hgrow, hpost⟩

theorem opened_of_storeAll {w w' : World} {a b : ArenaId} {parts : List Part}
    {outcome : Except Failure (List Handle)}
    (h : perform (parts.mapM (store a)) w = (outcome, w')) (hb : w'.Opened b) : w.Opened b := by
  by_contra hnot
  exact (invariant_storeAll (fun _ => invariant_unopened a b _) parts).of_perform hnot h hb

theorem placed_of_mem {w : World} {a : ArenaId} {parts : List Part} {handles : List Handle}
    (h : List.Forall₂ (Placed w a) parts handles) {handle : Handle} (hmem : handle ∈ handles) :
    ∃ part ∈ parts, Placed w a part handle :=
  exists_of_forall₂_mem h.flip hmem

/-- A copy is checked against the rules of the original before it is stored. -/
theorem perform_withChildren (w : World) (a : ArenaId) (e : Element) (children : List Handle) :
    perform (withChildren a e children) w =
      match if (w.arena a).options.validate then w.checkParts a e.info 0 (children.map Part.node)
        else .ok () with
      | .ok _ => perform (allocate a (.element { e with children })) w
      | .error f => (.error f, w) := by
  unfold withChildren
  rw [perform_bind]
  simp only [perform_get]
  split
  next =>
    rw [perform_bind, perform_observe]
    cases w.checkParts a e.info 0 (children.map Part.node) <;> rfl
  next => rfl

end Build

end MarkupArena
