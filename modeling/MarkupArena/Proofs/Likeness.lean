import MarkupArena.Proofs.Making

/-! Worlds that are alike: their arenas have the same links and limits, and nodes that correspond
slot by slot. Handles resolve in both or in neither, and children stand the same checks. -/
namespace MarkupArena

/-- Results that correspond, or the very same failure. -/
inductive Coincide {α β : Type} (post : α → β → Prop) :
    Except Failure α → Except Failure β → Prop where
  | ok {x : α} {y : β} : post x y → Coincide post (.ok x) (.ok y)
  | error (f : Failure) : Coincide post (.error f) (.error f)

namespace Coincide

variable {α β γ : Type} {post : α → β → Prop} {x : Except Failure α} {y : Except Failure β}

theorem eq {y : Except Failure α} (h : Coincide Eq x y) : y = x := by
  cases h with
  | ok heq => rw [heq]
  | error f => rfl

theorem of_ok {a : α} (h : Coincide post (.ok a) y) : ∃ b, y = .ok b ∧ post a b := by
  cases h with
  | ok hpost => exact ⟨_, rfl, hpost⟩

theorem of_error {f : Failure} (h : Coincide post (.error f) y) : y = .error f := by
  cases h
  rfl

theorem discard_eq (h : Coincide post x y) : discard y = discard x := by
  cases h <;> rfl

theorem bind_eq (h : Coincide post x y) {f : α → Except Failure γ} {g : β → Except Failure γ}
    (hnext : ∀ a b, post a b → g b = f a) : (y >>= g) = x >>= f := by
  cases h with
  | ok hpost => exact hnext _ _ hpost
  | error f => rfl

end Coincide

/-- A node without its attributes: all that the checks of its parent look at. -/
def Node.bare : Node → Node
  | .element e => .element { e with attributes := [] }
  | node => node

theorem Node.children_of_bare {node node' : Node} (h : node.bare = node'.bare) :
    node'.children = node.children := by
  cases node <;> cases node' <;> simp_all [Node.bare, Node.children]

/-- Arenas with the same links and limits, and corresponding nodes. -/
structure Arena.Like (R : Node → Node → Prop) (x y : Arena) : Prop where
  schema : y.options.schema = x.options.schema
  maxNodes : y.options.maxNodes = x.options.maxNodes
  generation : y.generation = x.generation
  links : y.links = x.links
  size : y.size = x.size
  node : ∀ (slot : Nat) (n n' : Node), x.nodes[slot]? = some n → y.nodes[slot]? = some n' → R n n'

theorem Arena.Like.exceededLimit?_eq {R : Node → Node → Prop} {x y : Arena} (h : x.Like R y) :
    y.exceededLimit? = x.exceededLimit? := by
  rw [Arena.exceededLimit?, h.maxNodes, h.size, Arena.exceededLimit?]

theorem Arena.Like.nodeAt? {R : Node → Node → Prop} {x y : Arena} (h : x.Like R y)
    (slot : Coordinate) : Option.Rel R (x.nodeAt? slot) (y.nodeAt? slot) := by
  cases slot with
  | stray => exact .none
  | count n =>
    have hsize : y.nodes.size = x.nodes.size := h.size
    have hnode := h.node n
    simp only [Arena.nodeAt?]
    by_cases hn : n < x.nodes.size
    · have hn' : n < y.nodes.size := hsize ▸ hn
      rw [Array.getElem?_eq_getElem hn, Array.getElem?_eq_getElem hn'] at hnode ⊢
      exact .some (hnode _ _ rfl rfl)
    · have hn' : ¬ n < y.nodes.size := hsize ▸ hn
      rw [Array.getElem?_eq_none (by omega), Array.getElem?_eq_none (by omega)]
      exact .none

/-- Worlds whose arenas are alike, one by one. -/
structure World.Like (R : Node → Node → Prop) (w w' : World) : Prop where
  size : w'.arenas.size = w.arenas.size
  stored : w'.stored = w.stored
  arena : ∀ a, (w.arena a).Like R (w'.arena a)

namespace World.Like

variable {R : Node → Node → Prop} {w w' : World} (h : w.Like R w')
include h

theorem search_eq (number : Coordinate) (unvisited pending : List ArenaId) :
    w'.search number unvisited pending = w.search number unvisited pending := by
  fun_induction World.search w number unvisited pending with
  | case1 => rw [World.search]
  | case2 unvisited a rest hmem hnumber =>
    rw [World.search, if_pos hmem, if_pos hnumber]
  | case3 unvisited a rest hmem hnumber ih =>
    rw [World.search, if_pos hmem, if_neg hnumber, (h.arena a).links, ih]
  | case4 unvisited a rest hmem ih =>
    rw [World.search, if_neg hmem, ih]

theorem owner?_eq (a : ArenaId) (number : Coordinate) : w'.owner? a number = w.owner? a number := by
  rw [owner?, owner?, arenaIds, arenaIds, h.size, h.search_eq]

theorem resolve (a : ArenaId) (handle : Handle) :
    Coincide R (w.resolve a handle) (w'.resolve a handle) := by
  rw [World.resolve, World.resolve, h.owner?_eq]
  cases w.owner? a handle.arena with
  | none => exact .error _
  | some owner =>
    simp only [resolveOwn, (h.arena owner).generation]
    split
    · exact .error _
    · have hnode := (h.arena owner).nodeAt? handle.slot
      generalize (w.arena owner).nodeAt? handle.slot = found at hnode
      generalize (w'.arena owner).nodeAt? handle.slot = found' at hnode
      cases hnode with
      | none => exact .error _
      | some hnode => exact .ok hnode

theorem resolveAll_eq (a : ArenaId) (handles : List Handle) :
    (handles.forM fun child => discard (w'.resolve a child)) =
      handles.forM fun child => discard (w.resolve a child) := by
  exact congrArg (handles.forM ·) (funext fun child => (h.resolve a child).discard_eq)

theorem depthBound_eq : w'.depthBound = w.depthBound := by
  rw [depthBound, depthBound, h.stored]

variable (hbare : ∀ n n', R n n' → n.bare = n'.bare)
include hbare

theorem checkMember_eq (a : ArenaId) (info : TagInfo) (index fuel : Nat) {node node' : Node}
    (hnode : node.bare = node'.bare) :
    w'.checkMember a info index fuel node' = w.checkMember a info index fuel node := by
  induction fuel generalizing node node' with
  | zero => rfl
  | succ fuel ih =>
    cases node <;> cases node' <;> simp only [Node.bare, reduceCtorEq, Node.element.injEq,
      Node.text.injEq, Node.fragment.injEq, Node.rendered.injEq] at hnode
    case element.element e e' =>
      have hinfo : e.info = e'.info := (Element.mk.inj hnode).1
      simp only [checkMember, (h.arena a).schema, Element.tag, hinfo]
    case text.text => simp only [checkMember, (h.arena a).schema, hnode]
    case rendered.rendered => simp only [checkMember, (h.arena a).schema, hnode]
    case fragment.fragment children children' =>
      subst hnode
      simp only [checkMember]
      refine congrArg (children.forM ·) (funext fun child => ?_)
      exact (h.resolve a child).bind_eq fun n n' hn => ih (hbare n n' hn)

theorem checkParts_eq (a : ArenaId) (info : TagInfo) (index : Nat) (parts : List Part) :
    w'.checkParts a info index parts = w.checkParts a info index parts := by
  induction parts generalizing index with
  | nil => rfl
  | cons part rest ih =>
    have hpart : w'.checkPart a info index part = w.checkPart a info index part := by
      cases part with
      | text value => rw [checkPart, checkPart, (h.arena a).schema]
      | node handle =>
        simp only [checkPart, h.depthBound_eq]
        exact (h.resolve a handle).bind_eq fun n n' hn =>
          h.checkMember_eq hbare a info index _ (hbare n n' hn)
    rw [checkParts, checkParts, hpart]
    simp only [ih]

/-- An element is accepted in both worlds or refused for the same reason, if both validate or
neither does. -/
theorem accept_eq {a : ArenaId}
    (hvalidate : (w'.arena a).options.validate = (w.arena a).options.validate) (tag : String)
    (input : AttributeInput) (parts : List Part) :
    w'.accept a tag input parts = w.accept a tag input parts := by
  simp only [accept, (h.arena a).schema, hvalidate, h.checkParts_eq hbare]

end World.Like

end MarkupArena
