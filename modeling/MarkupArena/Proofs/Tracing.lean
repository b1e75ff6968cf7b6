import MarkupArena.Build.Lines
import MarkupArena.Proofs.Likeness

/-! The same calls in an arena that traces construction and in one that does not. Calls that build
nodes come to the same in both; an element that was given no title has the place where it was made
for a title, and nothing else differs. -/
namespace MarkupArena

/-- An element with a title among its attributes. -/
def Element.titled (e : Element) : Bool :=
  e.attributes.any fun given => given.name == Build.siteAttribute

/-- An element that was given no title. -/
def Node.Untitled : Node → Prop
  | .element e => e.titled = false
  | _ => False

/-- An element with one more attribute, a title, in the last place; or the same element. -/
def Element.withTitle (title : Option String) (e : Element) : Element :=
  { e with attributes := e.attributes ++ title.toList.map fun text => ⟨Build.siteAttribute, text⟩ }

def Node.withTitle (title : Option String) : Node → Node
  | .element e => .element (e.withTitle title)
  | node => node

@[simp] theorem Element.withTitle_none (e : Element) : e.withTitle none = e := by
  simp [Element.withTitle]

@[simp] theorem Node.withTitle_none (node : Node) : node.withTitle none = node := by
  cases node <;> simp [Node.withTitle]

theorem Node.bare_withTitle (title : Option String) (node : Node) :
    (node.withTitle title).bare = node.bare := by
  cases node <;> rfl

theorem Node.children_withTitle (title : Option String) (node : Node) :
    (node.withTitle title).children = node.children :=
  Node.children_of_bare (node.bare_withTitle title).symm

/-- The title that an element gets for the place where it is made, if that is recorded and it has
none. -/
def Build.siteTitle (site : Option CallSite) : Node → Option String
  | .element e => if e.titled then none else site.map CallSite.title
  | _ => none

/-- The arena as it is when it traces construction, with a title, or none, for each slot. -/
def Arena.traced (titles : List (Option String)) (arena : Arena) : Arena :=
  { arena with
    options := { arena.options with traceConstruction := true }
    nodes := (List.zipWith Node.withTitle titles arena.nodes.toList).toArray }

theorem Arena.size_traced {titles : List (Option String)} {arena : Arena}
    (h : titles.length = arena.size) : (arena.traced titles).size = arena.size := by
  simp [Arena.traced, Arena.size, h]

theorem Arena.like_traced {titles : List (Option String)} {arena : Arena}
    (h : titles.length = arena.size) :
    arena.Like (fun n n' => n.bare = n'.bare) (arena.traced titles) where
  schema := rfl
  maxNodes := rfl
  generation := rfl
  links := rfl
  size := Arena.size_traced h
  node slot n n' hn hn' := by
    simp only [Arena.traced, List.getElem?_toArray, List.getElem?_zipWith_eq_some,
      Array.getElem?_toList, hn, Option.some.injEq] at hn'
    obtain ⟨title, found, -, rfl, rfl⟩ := hn'
    exact (Node.bare_withTitle title n).symm

theorem Arena.traced_push {titles : List (Option String)} {arena : Arena}
    (h : titles.length = arena.size) (title : Option String) (node : Node) :
    (arena.push node).traced (titles ++ [title]) =
      (arena.traced titles).push (node.withTitle title) := by
  have hlength : titles.length = arena.nodes.toList.length := by simpa [Arena.size] using h
  simp [Arena.traced, Arena.push, List.zipWith_append, hlength]

/-- Two worlds that differ in one arena, which traces construction in the second. What has a title
in the second world alone is an element without one in the first. -/
structure Traced (a : ArenaId) (titles : List (Option String)) (u v : World) : Prop where
  opened : u.Opened a
  off : (u.arena a).options.traceConstruction = false
  size : v.arenas.size = u.arenas.size
  stored : v.stored = u.stored
  others : ∀ b, b ≠ a → v.arena b = u.arena b
  arena : v.arena a = (u.arena a).traced titles
  untitled : List.Forall₂ (fun title node => title.isSome → node.Untitled) titles
    (u.arena a).nodes.toList

namespace Traced

variable {a : ArenaId} {titles : List (Option String)} {u v : World}

theorem opened_right (h : Traced a titles u v) : v.Opened a := by
  have hopened : a.index < u.arenas.size := h.opened
  exact (h.size ▸ hopened : a.index < v.arenas.size)

theorem length (h : Traced a titles u v) : titles.length = (u.arena a).size := by
  simpa [Arena.size] using h.untitled.length_eq

theorem like (h : Traced a titles u v) : u.Like (fun n n' => n.bare = n'.bare) v where
  size := h.size
  stored := h.stored
  arena b := by
    by_cases hb : b = a
    · subst hb
      rw [h.arena]
      exact Arena.like_traced h.length
    · rw [h.others b hb]
      refine ⟨rfl, rfl, rfl, rfl, rfl, fun slot n n' hn hn' => ?_⟩
      rw [Option.some.inj (hn.symm.trans hn')]

theorem validate_eq (h : Traced a titles u v) :
    (v.arena a).options.validate = (u.arena a).options.validate := by
  rw [h.arena]
  rfl

/-- Events are of no concern. -/
theorem aside (h : Traced a titles u v) {v' : World} (harenas : v'.arenas = v.arenas)
    (hstored : v'.stored = v.stored) : Traced a titles u v' where
  opened := h.opened
  off := h.off
  size := (congrArg Array.size harenas).trans h.size
  stored := hstored.trans h.stored
  others b hb := (World.arena_congr harenas b).trans (h.others b hb)
  arena := (World.arena_congr harenas a).trans h.arena
  untitled := h.untitled

theorem store (h : Traced a titles u v) {node : Node} {title : Option String}
    (hnode : title.isSome → node.Untitled) :
    Traced a (titles ++ [title]) (u.store a node) (v.store a (node.withTitle title)) := by
  have hu : (u.store a node).arena a = (u.arena a).push node := by
    rw [World.arena_store, if_pos ⟨rfl, h.opened⟩]
  have hv : (v.store a (node.withTitle title)).arena a =
      (v.arena a).push (node.withTitle title) := by
    rw [World.arena_store, if_pos ⟨rfl, h.opened_right⟩]
  refine ⟨World.opened_store.mpr h.opened, ?_, ?_, congrArg (· + 1) h.stored, ?_, ?_, ?_⟩
  · rw [hu]
    exact h.off
  · simpa [World.store, World.modifyArena] using h.size
  · intro b hb
    have hne : ∀ w : World, ¬ (a = b ∧ w.Opened b) := fun w hw => hb hw.1.symm
    rw [World.arena_store, World.arena_store, if_neg (hne v), if_neg (hne u), h.others b hb]
  · rw [hu, hv, h.arena, Arena.traced_push h.length]
  · rw [hu]
    simpa [Arena.push] using List.rel_append h.untitled (.cons hnode .nil)

theorem lastHandle_eq (h : Traced a titles u v) (node : Node) (title : Option String) :
    (v.store a (node.withTitle title)).lastHandle a = (u.store a node).lastHandle a := by
  have hlike := h.like.arena a
  rw [World.lastHandle_store u a node h.opened, World.lastHandle_store v a _ h.opened_right,
    hlike.generation, hlike.size]

end Traced

/-- Two ends of work: the same outcome in either world, and titles for the new nodes. -/
structure Records {α : Type} (a : ArenaId) (titles : List (Option String))
    (mark : Node → Option String) (u : World) (x y : Except Failure α × World) : Prop where
  outcome : y.1 = x.1
  nodes : ∃ new, (x.2.arena a).nodes.toList = (u.arena a).nodes.toList ++ new ∧
    Traced a (titles ++ new.map mark) x.2 y.2

/-- Work that traces construction, beside the same work that does not. -/
def Marks {α : Type} (a : ArenaId) (mark : Node → Option String) (work other : Action α) : Prop :=
  ∀ titles u v, Traced a titles u v → Records a titles mark u (perform work u) (perform other v)

namespace Marks

variable {α β : Type} {a : ArenaId} {mark : Node → Option String}

theorem unchanged {titles : List (Option String)} {u v : World} (h : Traced a titles u v)
    (outcome : Except Failure α) : Records a titles mark u (outcome, u) (outcome, v) :=
  ⟨rfl, [], by simp, by simpa using h⟩

theorem pure (x : α) : Marks a mark (pure x) (pure x) := fun _ _ _ h => unchanged h (.ok x)

theorem bind {work other : Action α} {next next' : α → Action β} (hwork : Marks a mark work other)
    (hnext : ∀ x, Marks a mark (next x) (next' x)) :
    Marks a mark (work >>= next) (other >>= next') := by
  intro titles u v h
  obtain ⟨houtcome, new, hnodes, htraced⟩ := hwork titles u v h
  rw [perform_bind, perform_bind]
  rcases hw : perform work u with ⟨outcome, u'⟩
  rcases ho : perform other v with ⟨outcome', v'⟩
  rw [hw, ho] at houtcome htraced
  rw [hw] at hnodes
  obtain rfl : outcome' = outcome := houtcome
  cases outcome' with
  | error f => exact ⟨rfl, new, hnodes, htraced⟩
  | ok x =>
    obtain ⟨houtcome', more, hmore, htraced'⟩ := hnext x _ u' v' htraced
    refine ⟨houtcome', new ++ more, ?_, ?_⟩
    · rw [hmore, hnodes, List.append_assoc]
    · rw [List.map_append, ← List.append_assoc]
      exact htraced'

theorem stepwise : Stepwise fun _ work => Marks a mark work work where
  pure := Marks.pure
  bind := Marks.bind

/-- A look at anything but the worlds. -/
theorem observe (outcome : Except Failure α) :
    Marks a mark (MarkupArena.observe fun _ => outcome) (MarkupArena.observe fun _ => outcome) := by
  intro titles u v h
  rw [perform_observe, perform_observe]
  exact unchanged h outcome

theorem allocate {node : Node} (hmark : (mark node).isSome → node.Untitled) :
    Marks a mark (MarkupArena.allocate a node)
      (MarkupArena.allocate a (node.withTitle (mark node))) := by
  intro titles u v h
  have hlike := h.like
  rw [perform_allocate, perform_allocate, (hlike.arena a).exceededLimit?_eq,
    (hlike.arena a).size, Node.children_withTitle, hlike.resolveAll_eq]
  split
  · exact unchanged h _
  · split
    · refine ⟨congrArg Except.ok (h.lastHandle_eq node _), [node], ?_, h.store hmark⟩
      rw [World.arena_store, if_pos ⟨rfl, h.opened⟩]
      simp [Arena.push]
    · exact unchanged h _

theorem allocate_unmarked {node : Node} (hmark : mark node = none) :
    Marks a mark (MarkupArena.allocate a node) (MarkupArena.allocate a node) := by
  have h : Marks a mark (MarkupArena.allocate a node)
      (MarkupArena.allocate a (node.withTitle (mark node))) := allocate (by simp [hmark])
  rwa [hmark, Node.withTitle_none] at h

theorem fragment (htext : ∀ value, mark (.text value) = none)
    (hfragment : ∀ handles, mark (.fragment handles) = none) (children : List Child) :
    Marks a mark (Build.fragment a children) (Build.fragment a children) :=
  stepwise.fragment (fun value => allocate_unmarked (htext value))
    (fun handles => allocate_unmarked (hfragment handles)) children

theorem withTitle_siteTitle (site : Option CallSite) (info : TagInfo) (given : List Attribute)
    (handles : List Handle) :
    (Node.element ⟨info, given, handles⟩).withTitle
        (Build.siteTitle site (.element ⟨info, given, handles⟩)) =
      .element ⟨info, Build.withSite site given, handles⟩ := by
  cases site with
  | none => simp [Build.siteTitle, Build.withSite]
  | some site =>
    cases htitled : given.any fun other => other.name == Build.siteAttribute <;>
      simp [Build.siteTitle, Element.titled, htitled, Build.withSite, Node.withTitle,
        Element.withTitle]

theorem untitled_of_siteTitle {site : Option CallSite} {node : Node}
    (h : (Build.siteTitle site node).isSome) : node.Untitled := by
  cases node with
  | element e =>
    cases htitled : e.titled with
    | false => exact htitled
    | true => simp [Build.siteTitle, htitled] at h
  | _ => cases h

theorem elementAt (site : Option CallSite) (tag : String) (input : AttributeInput)
    (children : List Child) :
    Marks a (Build.siteTitle site) (Build.elementAt a none tag input children)
      (Build.elementAt a site tag input children) := by
  intro titles u v h
  rw [Build.perform_elementAt, Build.perform_elementAt,
    h.like.accept_eq (fun _ _ h => h) h.validate_eq]
  rcases u.accept a tag input (Child.listParts children) with f | ⟨info, given⟩
  · exact unchanged h _
  · have hannounced : Traced a titles u (Build.announce v a site tag given) :=
      h.aside (Build.arenas_announce ..) (Build.stored_announce ..)
    have hparts : Marks a (Build.siteTitle site) ((Child.listParts children).mapM (Build.store a))
        ((Child.listParts children).mapM (Build.store a)) :=
      stepwise.storeAll (fun _ => allocate_unmarked rfl) _
    refine bind hparts (fun handles => ?_) titles u _ hannounced
    have hstore : Marks a (Build.siteTitle site)
        (MarkupArena.allocate a (.element ⟨info, given, handles⟩))
        (MarkupArena.allocate a ((Node.element ⟨info, given, handles⟩).withTitle
          (Build.siteTitle site (.element ⟨info, given, handles⟩)))) :=
      allocate untitled_of_siteTitle
    rw [withTitle_siteTitle] at hstore
    exact hstore

theorem element (site : CallSite) (tag : String) (input : AttributeInput)
    (children : List Child) :
    Marks a (Build.siteTitle (some site)) (Build.element a site tag input children)
      (Build.element a site tag input children) := by
  intro titles u v h
  have htraces : (v.arena a).options.traceConstruction = true := by
    rw [h.arena]
    rfl
  rw [Build.perform_element, Build.perform_element, h.off, htraces]
  exact elementAt (some site) tag input children titles u v h

theorem realize (description : Description) :
    Marks a (fun _ => none) (Build.realize a description) (Build.realize a description) := by
  cases description with
  | element tag input children =>
    have hnone : Build.siteTitle none = fun _ => none := by
      funext node
      cases node <;> simp [Build.siteTitle]
    exact hnone ▸ elementAt none tag input [children]
  | text value => exact allocate_unmarked rfl
  | fragment children => exact fragment (fun _ => rfl) (fun _ => rfl) [children]
  | rendered markup => exact allocate_unmarked rfl

theorem withChildren {e : Element} {children : List Handle} {title : Option String}
    (hmark : mark (.element { e with children }) = title)
    (htitle : title.isSome → e.titled = false) :
    Marks a mark (Build.withChildren a e children)
      (Build.withChildren a (e.withTitle title) children) := by
  intro titles u v h
  rw [Build.perform_withChildren, Build.perform_withChildren, h.validate_eq,
    h.like.checkParts_eq fun _ _ h => h]
  subst hmark
  simp only [Element.withTitle]
  split
  · exact allocate htitle titles u v h
  · exact unchanged h _

theorem lines (site : CallSite) (value : String) (tab : Build.Tab) (separator : String) :
    Marks a (Build.siteTitle (some site)) (Build.lines a site value tab separator)
      (Build.lines a site value tab separator) :=
  stepwise.lines (fun _ => allocate_unmarked rfl) observe (element site _ _ _)
    (fun _ => element site _ _ _) value tab separator

end Marks

end MarkupArena
