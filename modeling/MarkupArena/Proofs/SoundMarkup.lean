import MarkupArena.Proofs.Members
import MarkupArena.Proofs.Runs

/-! Arenas that validate against one schema hold only what it permits, however the nodes came to be
and wherever their children are stored. -/
namespace MarkupArena

namespace Schema

/-- A name that a tag takes as an attribute, or the record of where the element was made. -/
def AdmitsAttribute (schema : Schema) (tag : String) (given : Attribute) : Prop :=
  schema.checkAttribute tag given.name = .ok () ∨
    ∃ site : CallSite, given = ⟨Build.siteAttribute, site.title⟩

/-- The tag and the attributes of an element are as the schema wants them. -/
structure Admits (schema : Schema) (e : Element) : Prop where
  tag : schema.find? e.tag = some e.info
  names : ∀ given ∈ e.attributes, Text.isAttributeName given.name
  distinct : (e.attributes.map Attribute.name).Nodup
  accepted : ∀ given ∈ e.attributes, schema.AdmitsAttribute e.tag given

end Schema

theorem AttributeInput.keep_ok {tag : String} {seen : List String}
    {pairs : List (String × AttributeValue)} {given : List Attribute}
    (h : keep tag seen pairs = .ok given) :
    (∀ g ∈ given, Text.isAttributeName g.name ∧ g.name ∉ seen) ∧
      (given.map Attribute.name).Nodup := by
  induction pairs generalizing seen given with
  | nil =>
    obtain rfl := Except.ok.inj h
    simp
  | cons pair rest ih =>
    obtain ⟨name, value⟩ := pair
    unfold keep at h
    split at h
    next => exact ih h
    next text _ =>
      split at h
      next => cases h
      next hname =>
        split at h
        next => cases h
        next hseen =>
          cases hrest : keep tag (name :: seen) rest with
          | error why => simp [hrest, Except.map] at h
          | ok others =>
            rw [hrest] at h
            obtain rfl := Except.ok.inj h
            obtain ⟨hothers, hnodup⟩ := ih hrest
            simp only [Bool.not_eq_true, Bool.not_eq_false', List.contains_iff_mem] at hname hseen
            refine ⟨?_, ?_⟩
            · intro g hg
              rcases List.mem_cons.mp hg with rfl | hg
              · exact ⟨hname, hseen⟩
              · obtain ⟨hvalid, hnot⟩ := hothers g hg
                exact ⟨hvalid, fun hmem => hnot (List.mem_cons_of_mem _ hmem)⟩
            · rw [List.map_cons, List.nodup_cons]
              refine ⟨fun hmem => ?_, hnodup⟩
              obtain ⟨g, hg, hgname⟩ := List.mem_map.mp hmem
              exact (hothers g hg).2 (hgname ▸ List.mem_cons_self)

theorem Build.isAttributeName_siteAttribute : Text.isAttributeName Build.siteAttribute := by
  decide +kernel

/-- The attributes of an element that passed all checks, with or without its call site. -/
theorem World.admits_of_accept {w : World} {a : ArenaId} {tag : String} {input : AttributeInput}
    {parts : List Part} {info : TagInfo} {given : List Attribute}
    (h : w.accept a tag input parts = .ok (info, given)) (hvalidate : (w.arena a).options.validate)
    (site : Option CallSite) (children : List Handle) :
    (w.arena a).options.schema.Admits ⟨info, Build.withSite site given, children⟩ := by
  obtain ⟨hinfo, hgiven, hchecks⟩ := World.accept_ok h
  obtain ⟨hnames, hdistinct⟩ := AttributeInput.keep_ok hgiven
  obtain rfl : info.tagName = tag := Schema.tagName_of_find? hinfo
  have haccepted : ∀ g ∈ given,
      (w.arena a).options.schema.checkAttribute info.tagName g.name = .ok () := fun g hg =>
    mapError_eq_ok_iff.mp (forM_eq_ok_iff.mp (hchecks hvalidate).1 g hg)
  have hplain : (w.arena a).options.schema.Admits ⟨info, given, children⟩ :=
    { tag := hinfo
      names := fun g hg => (hnames g hg).1
      distinct := hdistinct
      accepted := fun g hg => .inl (haccepted g hg) }
  cases site with
  | none => exact hplain
  | some site =>
    unfold Build.withSite
    dsimp only
    split
    next => exact hplain
    next hnone =>
      have hfree : ∀ g ∈ given, g.name ≠ Build.siteAttribute := by
        intro g hg hname
        exact hnone (List.any_eq_true.mpr ⟨g, hg, beq_iff_eq.mpr hname⟩)
      refine ⟨hplain.tag, ?_, ?_, ?_⟩
      · intro g hg
        rcases List.mem_append.mp hg with hg | hg
        · exact hplain.names g hg
        · obtain rfl := List.mem_singleton.mp hg
          exact Build.isAttributeName_siteAttribute
      · rw [List.map_append, List.nodup_append]
        refine ⟨hdistinct, List.nodup_singleton _, ?_⟩
        intro name hname other hother
        obtain ⟨g, hg, rfl⟩ := List.mem_map.mp hname
        obtain rfl := List.mem_singleton.mp hother
        exact hfree g hg
      · intro g hg
        rcases List.mem_append.mp hg with hg | hg
        · exact hplain.accepted g hg
        · exact .inr ⟨site, List.mem_singleton.mp hg⟩

/-- What holds of a world whose arenas all validate against one schema. -/
structure World.Sound (schema : Schema) (w : World) : Prop where
  options : ∀ a, w.Opened a →
    (w.arena a).options.schema = schema ∧ (w.arena a).options.validate = true
  closed : w.Closed
  admitted : ∀ b h e, w.Holds b h (.element e) → schema.Admits e
  members : ∀ b h e, w.Holds b h (.element e) →
    ∀ member, Node.Member w.Live (.fragment e.children) member → schema.Permits e.tag member

namespace World.Sound

variable {schema : Schema} {w : World}

theorem empty : Sound schema {} := by
  have hopened : ∀ a, ¬ ({} : World).Opened a := fun a => Nat.not_lt_zero _
  exact ⟨fun a ha => absurd ha (hopened a), fun b h node hold => absurd hold.opened (hopened b),
    fun b h e hold => absurd hold.opened (hopened b),
    fun b h e hold => absurd hold.opened (hopened b)⟩

/-- A change that brings no node leaves the markup sound. -/
theorem of_holds (hs : Sound schema w) {w' : World} (hstep : World.Step w w')
    (hopened : ∀ a, w'.Opened a → w.Opened a ∨
      (w'.arena a).options.schema = schema ∧ (w'.arena a).options.validate = true)
    (hholds : ∀ b h node, w'.Holds b h node → w.Holds b h node) : Sound schema w' where
  options a ha := by
    rcases hopened a ha with ha | hoptions
    · rw [(hstep.ages.arena a ha).options]
      exact hs.options a ha
    · exact hoptions
  closed := hs.closed.step hstep
  admitted b h e hold := hs.admitted b h e (hholds b h _ hold)
  members b h e hold member hm :=
    hs.members b h e (hholds b h _ hold) member
      (hm.mono fun _ _ ⟨c, hc⟩ => ⟨c, hholds c _ _ hc⟩)

theorem aside (hs : Sound schema w) {w' : World} (harenas : w'.arenas = w.arenas)
    (hstored : w.stored ≤ w'.stored) : Sound schema w' :=
  hs.of_holds (.growth (.aside harenas hstored)) (fun _ ha => .inl ((opened_congr harenas).mp ha))
    fun _ _ _ hold => hold.congr harenas

theorem tell (hs : Sound schema w) (listener : Option Listener) (event : Event) :
    Sound schema (w.tell listener event) :=
  hs.aside (w.arenas_tell listener event) (w.stored_tell listener event).ge

theorem link (hs : Sound schema w) (a source : ArenaId) :
    Sound schema (w.modifyArena a (·.addLink source)) :=
  hs.of_holds (.growth (.link a source)) (fun _ hb => .inl (opened_modifyArena.mp hb))
    fun _ _ _ hold => hold.of_link

theorem reset (hs : Sound schema w) (a : ArenaId) :
    Sound schema (w.modifyArena a Arena.next) :=
  hs.of_holds (.reset a) (fun _ hb => .inl (opened_modifyArena.mp hb))
    fun _ _ _ hold => hold.of_reset

theorem openArena (hs : Sound schema w) {options : ArenaOptions} (hschema : options.schema = schema)
    (hvalidate : options.validate = true) (listener : Option Listener) :
    Sound schema { w with arenas := w.arenas.push { options, listener } } := by
  refine hs.of_holds (.growth (.openArena options listener)) ?_ fun _ _ _ hold => hold.of_openArena
  intro b hb
  by_cases hlast : b.index = w.arenas.size
  · rw [arena_openArena, if_pos hlast]
    exact .inr ⟨hschema, hvalidate⟩
  · left
    simp only [Opened, Array.size_push] at hb ⊢
    omega

/-- An element with admitted attributes and permitted members may be stored, and so may any node
that is no element. -/
theorem store (hs : Sound schema w) {a : ArenaId} {node : Node}
    (hresolves : ∀ child ∈ node.children, ∃ n, w.resolve a child = .ok n)
    (hnode : w.Opened a → node.Within fun e => schema.Admits e ∧ ∀ member,
      Node.Member (w.store a node).Live (.fragment e.children) member →
        schema.Permits e.tag member) : Sound schema (w.store a node) := by
  have hstep : World.Step w (w.store a node) := .growth (growth_store hresolves)
  refine ⟨?_, hs.closed.step hstep, ?_, ?_⟩
  · intro b hb
    have hb := World.opened_store.mp hb
    rw [(w.grows_store a node).options hb]
    exact hs.options b hb
  · intro b h e hold
    rcases hold.of_store with hold | ⟨ha, -, heq, -⟩
    · exact hs.admitted b h e hold
    · exact (hnode ha e heq.symm).1
  · intro b h e hold member hm
    rcases hold.of_store with hold | ⟨ha, -, heq, -⟩
    -- The children of an element stored before were given out, so the new node is none of them.
    · exact hs.members b h e hold member
        (hm.of_issued hstep.ages hs.closed (hs.closed b h (.element e) hold))
    · exact (hnode ha e heq.symm).2 member hm

theorem allocate (hs : Sound schema w) {a : ArenaId} {node : Node}
    (hnode : w.Opened a → node.Within fun e => schema.Admits e ∧ ∀ member,
      Node.Member (w.store a node).Live (.fragment e.children) member →
        schema.Permits e.tag member) : Sound schema (perform (allocate a node) w).2 :=
  allocate_leaves hs fun hresolves => hs.store hresolves hnode

theorem invariant_allocate {a : ArenaId} {node : Node} (hnode : ∀ e, node ≠ .element e) :
    Invariant (Sound schema) (MarkupArena.allocate a node) :=
  fun _ hs => ⟨hs.allocate fun _ e he => absurd he (hnode e), fun _ _ => True.intro⟩

/-- An element may be placed if its attributes are admitted and its parts are permitted. -/
theorem place (hs : Sound schema w) {a : ArenaId} {info : TagInfo} {attributes : List Attribute}
    {parts : List Part}
    (hadmits : w.Opened a → ∀ children, schema.Admits ⟨info, attributes, children⟩)
    (hparts : w.Opened a → ∀ part ∈ parts, w.PermitsPart schema info.tagName part) :
    Sound schema (perform (Build.place a info attributes parts) w).2 := by
  have hstores : Invariant (Sound schema) (parts.mapM (Build.store a)) :=
    Build.invariant_storeAll (fun _ => invariant_allocate fun e he => by cases he) parts
  unfold Build.place
  rw [perform_bind]
  rcases h : perform (parts.mapM (Build.store a)) w with ⟨f | handles, w₁⟩
  · exact hstores.of_perform hs h
  · have hs₁ : Sound schema w₁ := hstores.of_perform hs h
    refine hs₁.allocate fun ha₁ => ?_
    rintro _ ⟨⟩
    have ha : w.Opened a := Build.opened_of_storeAll h ha₁
    refine ⟨hadmits ha handles, fun member hm => ?_⟩
    have hstore := w₁.grows_store a (.element ⟨info, attributes, handles⟩)
    obtain ⟨hgrow, hplaced⟩ := Build.yields_storeAll ha parts w w₁ handles (.refl w) h
    cases hm with
    | itself flat => exact absurd rfl (flat _)
    | within hchild hlive hm =>
      obtain ⟨part, hpart, hhandle⟩ := Build.placed_of_mem (hplaced _ hstore) hchild
      exact ((hparts ha part hpart).ages (hgrow.trans hstore).ages hs.closed).member
        hhandle hlive hm

theorem elementAt (hs : Sound schema w) (a : ArenaId) (site : Option CallSite) (tag : String)
    (input : AttributeInput) (children : List Child) :
    Sound schema (perform (Build.elementAt a site tag input children) w).2 := by
  rw [Build.perform_elementAt]
  rcases h : w.accept a tag input (Child.listParts children) with f | ⟨info, given⟩
  · exact hs
  · have harenas := Build.arenas_announce w a site tag given
    have hstored := (Build.stored_announce w a site tag given).ge
    refine (hs.aside harenas hstored).place (fun ha => ?_) fun ha part hpart => ?_
    all_goals
      obtain ⟨hschema, hvalidate⟩ := hs.options a ((opened_congr harenas).mp ha)
    · rw [← hschema]
      exact admits_of_accept h hvalidate site
    · obtain ⟨hinfo, -, hchecks⟩ := accept_ok h
      obtain rfl := Schema.tagName_of_find? hinfo
      have hpermits := checkParts_sound hinfo (hchecks hvalidate).2 part hpart
      rw [hschema] at hpermits
      exact hpermits.ages (Step.growth (.aside harenas hstored)).ages hs.closed

theorem withChildren (hs : Sound schema w) (a : ArenaId) {e : Element} (he : schema.Admits e)
    (children : List Handle) :
    Sound schema (perform (Build.withChildren a e children) w).2 := by
  rw [Build.perform_withChildren]
  split
  next hchecks =>
    refine hs.allocate fun ha => ?_
    rintro _ ⟨⟩
    refine ⟨⟨he.tag, he.names, he.distinct, he.accepted⟩, fun member hm => ?_⟩
    obtain ⟨hschema, hvalidate⟩ := hs.options a ha
    rw [if_pos hvalidate] at hchecks
    have hinfo : (w.arena a).options.schema.find? e.info.tagName = some e.info := hschema ▸ he.tag
    have hstore := w.grows_store a (.element { e with children })
    cases hm with
    | itself flat => exact absurd rfl (flat _)
    | within hchild hlive hm =>
      have hpermits := checkParts_sound hinfo hchecks _ (List.mem_map_of_mem hchild)
      rw [hschema] at hpermits
      exact (hpermits.ages hstore.ages hs.closed).member (a := a) rfl hlive hm
  next => exact hs

theorem stands (schema : Schema) : Stands (Sound schema) schema.Admits where
  shows w hs a h e hr := by
    obtain ⟨b, -, hold⟩ := resolve_eq_ok_iff.mp hr
    exact hs.admitted b h e hold
  aside w w' harenas hstored hs := hs.aside harenas hstored
  link w a source hs := hs.link a source
  text a value := invariant_allocate fun e he => by cases he
  fragment a children := invariant_allocate fun e he => by cases he
  rendered a markup := invariant_allocate fun e he => by cases he
  element a site tag input children w hs :=
    ⟨hs.elementAt a site tag input children, fun _ _ => True.intro⟩
  copy a e children he w hs := ⟨hs.withChildren a he children, fun _ _ => True.intro⟩

end World.Sound

/-- The calls that make markup in arenas which validate against one schema. Copies are made of
elements that were shown. -/
inductive MarkupCall (schema : Schema) (Held : Element → Prop) : {α : Type} → Action α → Prop where
  | addListener : MarkupCall schema Held addListener
  | openArena {options : ArenaOptions} (listener : Option Listener) :
      options.schema = schema → options.validate = true →
      MarkupCall schema Held (openArena options listener)
  | openCache (maxEntries : Option Number) : MarkupCall schema Held (openCache maxEntries)
  | updateCache {α : Type} (c : CacheId) (step : Cache → α × Cache) :
      MarkupCall schema Held (updateCache c step)
  | link (a source : ArenaId) : MarkupCall schema Held (link a source)
  | graft (a source : ArenaId) (h : Handle) : MarkupCall schema Held (graft a source h)
  | reset (a : ArenaId) : MarkupCall schema Held (reset a)
  | text (a : ArenaId) (value : String) : MarkupCall schema Held (Build.text a value)
  | rendered (a : ArenaId) (markup : Rendered) : MarkupCall schema Held (Build.rendered a markup)
  | fragment (a : ArenaId) (children : List Child) :
      MarkupCall schema Held (Build.fragment a children)
  | element (a : ArenaId) (site : CallSite) (tag : String) (input : AttributeInput)
      (children : List Child) : MarkupCall schema Held (Build.element a site tag input children)
  | realize (a : ArenaId) (description : Description) :
      MarkupCall schema Held (Build.realize a description)
  | withChildren (a : ArenaId) {e : Element} (children : List Handle) :
      Held e → MarkupCall schema Held (Build.withChildren a e children)
  | lines (a : ArenaId) (site : CallSite) (value : String) (tab : Build.Tab) (separator : String) :
      MarkupCall schema Held (Build.lines a site value tab separator)
  | plainText (a : ArenaId) (h : Handle) : MarkupCall schema Held (plainText a h)

theorem MarkupCall.invariant {schema : Schema} {α : Type} {act : Action α}
    (h : MarkupCall schema schema.Admits act) : Invariant (World.Sound schema) act := by
  have hs := World.Sound.stands schema
  have haside : ∀ {β : Type} {work : Action β},
      (∀ w, (perform work w).2.arenas = w.arenas ∧ (perform work w).2.stored = w.stored) →
      Invariant (World.Sound schema) work := fun hwork w hw =>
    ⟨hw.aside (hwork w).1 (hwork w).2.ge, fun _ _ => True.intro⟩
  cases h with
  | addListener => exact haside fun w => ⟨rfl, rfl⟩
  | openArena listener hschema hvalidate =>
    exact fun w hw => ⟨hw.openArena hschema hvalidate listener, fun _ _ => True.intro⟩
  | openCache => exact haside fun w => ⟨rfl, rfl⟩
  | updateCache => exact haside fun w => ⟨rfl, rfl⟩
  | link a source => exact (hs.at a).link_to source
  | graft a source handle => exact (hs.at a).graft source handle
  | reset a => exact fun w hw => ⟨(hw.reset a).tell _ _, fun _ _ => True.intro⟩
  | text a value => exact hs.text a value
  | rendered a markup => exact hs.rendered a markup
  | fragment a children => exact (hs.at a).makeFragment children
  | element a site tag input children => exact (hs.at a).makeElement site tag input children
  | realize a description => exact (hs.at a).realize description
  | withChildren a children he => exact hs.copy a _ children he
  | lines a site value tab separator => exact (hs.at a).lines site value tab separator
  | plainText a handle => exact (hs.at a).plainText handle

/-- Work that makes markup against one schema. What it copies it was shown before: whatever holds
of all elements that it was shown holds of every element that it copies. -/
def MakesMarkup {σ α : Type} (schema : Schema) (work : Session σ α) (own : σ) : Prop :=
  ∀ Held : Element → Prop, ∃ Own : σ → Prop,
    Own own ∧ Client (MarkupCall schema Held) Held Own work

/-- Whatever work makes markup, every element it leaves stored has a tag and attributes that the
schema wants, and only members that the schema permits there, whoever looks. -/
theorem sound_of_makesMarkup {σ α : Type} {schema : Schema} {work : Session σ α} {own own' : σ}
    {outcome : Except Failure α} {w : World} (hwork : MakesMarkup schema work own)
    (hrun : perform work ({}, own) = (outcome, w, own')) {a : ArenaId} {slot : Nat} {e : Element}
    (hstored : (w.arena a).nodes[slot]? = some (.element e)) :
    schema.Admits e ∧ ∀ (b : ArenaId) (member : Node),
      Node.Member (fun h n => w.resolve b h = .ok n) (.fragment e.children) member →
        schema.Permits e.tag member := by
  obtain ⟨Own, hown, hclient⟩ := hwork schema.Admits
  have hstands := World.Sound.stands schema
  have hkeeps := hclient.invariant (fun a => (hstands.at a).revision) MarkupCall.invariant
  have hs : World.Sound schema w :=
    (hkeeps.of_perform (s := ({}, own)) ⟨World.Sound.empty, hown⟩ hrun).1
  have hold : w.Holds a (a.handle (w.arena a).generation slot) (.element e) :=
    ⟨slot, 0, rfl, hstored⟩
  refine ⟨hs.admitted _ _ e hold, fun b member hm => hs.members _ _ e hold member ?_⟩
  exact hm.mono fun _ _ hr => World.live_of_resolve hr

/-- A tag for paragraphs of text. -/
def paragraph : TagInfo :=
  { tagName := "p", structName := "P", hasGlobalAttributes := true, hasClosingTag := true
    attributes := [], contentCategories := [], permittedContent := [], excludedContent := []
    permittedChildTags := [], allowsText := true }

/-- A schema with nothing but paragraphs. -/
def prose : Schema := ⟨Number.ofNat 1, [paragraph], [], []⟩

def prosePage : World := { arenas := #[{ options := { schema := prose }, listener := none }] }

def writeParagraph : Session Unit Handle := do
  let a ← monadLift (openArena { schema := prose } none)
  monadLift (Build.element a ⟨[], []⟩ "p" .empty [.text "line"])

/-- The world after the text of the paragraph is stored. -/
def paragraphBegun : World := prosePage.store ⟨0⟩ (.text "line")

def writtenParagraph : Element := ⟨paragraph, [], [ArenaId.handle ⟨0⟩ 0 0]⟩

theorem resolve_paragraphBegun :
    paragraphBegun.resolve ⟨0⟩ (ArenaId.handle ⟨0⟩ 0 0) = .ok (.text "line") :=
  World.resolve_eq_ok_iff.mpr ⟨⟨0⟩, .refl, 0, 0, rfl, rfl⟩

theorem perform_element_prosePage :
    perform (Build.element ⟨0⟩ ⟨[], []⟩ "p" .empty [.text "line"]) prosePage =
      (.ok (ArenaId.handle ⟨0⟩ 0 1), paragraphBegun.store ⟨0⟩ (.element writtenParagraph)) := by
  have hstore : perform (allocate ⟨0⟩ (.element writtenParagraph)) paragraphBegun =
      (.ok (ArenaId.handle ⟨0⟩ 0 1), paragraphBegun.store ⟨0⟩ (.element writtenParagraph)) := by
    refine allocate_of_resolves rfl fun child hchild => ?_
    obtain rfl := List.mem_singleton.mp hchild
    exact ⟨_, resolve_paragraphBegun⟩
  exact (Build.perform_elementAt prosePage ⟨0⟩ none "p" .empty [.text "line"]).trans hstore

theorem perform_writeParagraph : perform writeParagraph ({}, ()) =
    (.ok (ArenaId.handle ⟨0⟩ 0 1), paragraphBegun.store ⟨0⟩ (.element writtenParagraph), ()) := by
  have hopen : perform (openArena { schema := prose } none) {} = (.ok ⟨0⟩, prosePage) := rfl
  unfold writeParagraph
  rw [perform_bind, perform_lift, hopen]
  simp only [perform_lift, perform_element_prosePage]

theorem sound_of_writeParagraph : ∃ outcome w e, MakesMarkup prose writeParagraph () ∧
    perform writeParagraph ({}, ()) = (outcome, w, ()) ∧
    (w.arena ⟨0⟩).nodes[1]? = some (.element e) ∧ prose.Admits e ∧
    prose.Permits e.tag (.text "line") := by
  have hmakes : MakesMarkup prose writeParagraph () := fun _ =>
    ⟨fun _ => True, True.intro, .andThen (.call (.openArena none rfl rfl)) fun _ =>
      .call (.element ..)⟩
  have hstored : ((paragraphBegun.store ⟨0⟩ (.element writtenParagraph)).arena ⟨0⟩).nodes[1]? =
      some (.element writtenParagraph) := rfl
  obtain ⟨hadmits, hmembers⟩ := sound_of_makesMarkup hmakes perform_writeParagraph hstored
  refine ⟨_, _, _, hmakes, perform_writeParagraph, hstored, hadmits, hmembers ⟨0⟩ _ ?_⟩
  have hresolve := World.resolve_grow (World.grows_store _ ⟨0⟩ (.element writtenParagraph))
    resolve_paragraphBegun
  exact .within (List.mem_singleton.mpr rfl) hresolve (.itself fun _ h => by cases h)

end MarkupArena
