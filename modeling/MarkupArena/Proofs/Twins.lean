import MarkupArena.Proofs.Agreement
import MarkupArena.Proofs.Custody

/-! Two arenas that hold the same, but for the names of handles. What is read from one agrees with
what is read from the other, and work that treats their handles alike leaves them so. -/
namespace MarkupArena

/-- Two arenas, each in one of its generations. -/
structure Twins where
  left : ArenaId
  right : ArenaId
  leftGeneration : Nat
  rightGeneration : Nat

namespace Twins

variable (t : Twins)

/-- Handles of one slot in either arena, the same copies. -/
def At (slot : Nat) (h h' : Handle) : Prop :=
  ∃ copy, h = t.left.handle t.leftGeneration slot copy ∧
    h' = t.right.handle t.rightGeneration slot copy

/-- Handles that stand for each other: those of the same slot. -/
def Same (h h' : Handle) : Prop := ∃ slot, t.At slot h h'

def Below (bound : Nat) (h h' : Handle) : Prop := ∃ slot < bound, t.At slot h h'

variable {t}

theorem Below.same {bound : Nat} {h h' : Handle} (hb : t.Below bound h h') : t.Same h h' := by
  obtain ⟨slot, -, hat⟩ := hb
  exact ⟨slot, hat⟩

end Twins

/-- Nodes that are the same but for their children, which correspond. -/
inductive Node.Corresponds (R : Handle → Handle → Prop) : Node → Node → Prop where
  | element {info : TagInfo} {attributes : List Attribute} {children children' : List Handle} :
      List.Forall₂ R children children' →
      Corresponds R (.element ⟨info, attributes, children⟩) (.element ⟨info, attributes, children'⟩)
  | text (value : String) : Corresponds R (.text value) (.text value)
  | fragment {children children' : List Handle} :
      List.Forall₂ R children children' → Corresponds R (.fragment children) (.fragment children')
  | rendered (markup : Rendered) : Corresponds R (.rendered markup) (.rendered markup)

namespace Node.Corresponds

variable {R R' : Handle → Handle → Prop} {node node' : Node}

theorem children (h : node.Corresponds R node') :
    List.Forall₂ R node.children node'.children := by
  cases h with
  | element hchildren => exact hchildren
  | text => exact .nil
  | fragment hchildren => exact hchildren
  | rendered => exact .nil

theorem imp (h : node.Corresponds R node') (hR : ∀ h h', R h h' → R' h h') :
    node.Corresponds R' node' := by
  cases h with
  | element hchildren => exact .element (hchildren.imp hR)
  | text value => exact .text value
  | fragment hchildren => exact .fragment (hchildren.imp hR)
  | rendered markup => exact .rendered markup

end Node.Corresponds

/-- Parts, descriptions and changes that are the same but for the handles in them. -/
inductive Twins.SamePart (t : Twins) : Part → Part → Prop where
  | text (value : String) : SamePart t (.text value) (.text value)
  | node {h h' : Handle} : t.Same h h' → SamePart t (.node h) (.node h')

inductive Twins.SameDescription (t : Twins) : Description → Description → Prop where
  | element (tag : String) (input : AttributeInput) {children children' : Child} :
      List.Forall₂ t.SamePart children.parts children'.parts →
      SameDescription t (.element tag input children) (.element tag input children')
  | text (value : String) : SameDescription t (.text value) (.text value)
  | fragment {children children' : Child} :
      List.Forall₂ t.SamePart children.parts children'.parts →
      SameDescription t (.fragment children) (.fragment children')
  | rendered (markup : Rendered) : SameDescription t (.rendered markup) (.rendered markup)

inductive Twins.SameReplacement (t : Twins) : Replacement → Replacement → Prop where
  | stored {h h' : Handle} : t.Same h h' → SameReplacement t (.stored h) (.stored h')
  | described {description description' : Description} :
      t.SameDescription description description' →
      SameReplacement t (.described description) (.described description')

inductive Twins.SameChange (t : Twins) : Change → Change → Prop where
  | keep : SameChange t .keep .keep
  | replace {node node' : Replacement} :
      t.SameReplacement node node' → SameChange t (.replace node) (.replace node')
  | remove : SameChange t .remove .remove
  | splice {nodes nodes' : List Replacement} :
      List.Forall₂ t.SameReplacement nodes nodes' → SameChange t (.splice nodes) (.splice nodes')

/-- The arenas hold corresponding nodes, whose children are in slots before their own. Nothing
happens to the pools on the left. -/
structure Mirrors (t : Twins) (pools : Array Pool) (w w' : World) : Prop where
  pools : w.pools = pools
  opened : w.Opened t.left
  opened_right : w'.Opened t.right
  generation : (w.arena t.left).generation = t.leftGeneration
  generation_right : (w'.arena t.right).generation = t.rightGeneration
  options : (w.arena t.left).options = (w'.arena t.right).options
  size : (w.arena t.left).size = (w'.arena t.right).size
  node : ∀ (slot : Nat) (node : Node), (w.arena t.left).nodes[slot]? = some node →
    ∃ node', (w'.arena t.right).nodes[slot]? = some node' ∧ node.Corresponds (t.Below slot) node'
  stored : (w.arena t.left).size ≤ w.stored
  stored_right : (w'.arena t.right).size ≤ w'.stored

namespace Mirrors

variable {t : Twins} {pools : Array Pool} {w w' : World} (hm : Mirrors t pools w w')
include hm

theorem lt_depthBound {slot : Nat} (hslot : slot < (w.arena t.left).size) :
    slot < w.depthBound ∧ slot < w'.depthBound :=
  ⟨Nat.lt_succ_of_lt (hslot.trans_le hm.stored),
    Nat.lt_succ_of_lt ((hm.size ▸ hslot).trans_le hm.stored_right)⟩

theorem aside {v v' : World} (harenas : v.arenas = w.arenas) (hpools : v.pools = w.pools)
    (hstored : w.stored ≤ v.stored) (harenas' : v'.arenas = w'.arenas)
    (hstored' : w'.stored ≤ v'.stored) : Mirrors t pools v v' := by
  have harena := World.arena_congr harenas t.left
  have harena' := World.arena_congr harenas' t.right
  refine ⟨hpools.trans hm.pools, (World.opened_congr harenas).mpr hm.opened,
    (World.opened_congr harenas').mpr hm.opened_right, ?_, ?_, ?_, ?_, ?_, ?_, ?_⟩ <;>
    simp only [harena, harena']
  · exact hm.generation
  · exact hm.generation_right
  · exact hm.options
  · exact hm.size
  · exact hm.node
  · exact hm.stored.trans hstored
  · exact hm.stored_right.trans hstored'

/-- Corresponding nodes are stored in the same slot. -/
theorem store {node node' : Node}
    (hnode : node.Corresponds (t.Below (w.arena t.left).size) node') :
    Mirrors t pools (w.store t.left node) (w'.store t.right node') := by
  have harena : (w.store t.left node).arena t.left = (w.arena t.left).push node :=
    w.arena_modifyArena_self t.left _ hm.opened
  have harena' : (w'.store t.right node').arena t.right = (w'.arena t.right).push node' :=
    w'.arena_modifyArena_self t.right _ hm.opened_right
  have hsize := hm.size
  unfold Arena.size at hsize hnode
  refine ⟨hm.pools, World.opened_store.mpr hm.opened, World.opened_store.mpr hm.opened_right,
    ?_, ?_, ?_, ?_, ?_, ?_, ?_⟩ <;>
    simp only [harena, harena', Arena.push, Arena.size, Array.size_push]
  · exact hm.generation
  · exact hm.generation_right
  · exact hm.options
  · exact congrArg (· + 1) hsize
  · intro slot stored hstored
    rw [Array.getElem?_push] at hstored
    simp only [Array.getElem?_push, ← hsize]
    split at hstored
    next hlast =>
      obtain rfl := Option.some.inj hstored
      exact ⟨node', if_pos hlast, hlast ▸ hnode⟩
    next hearlier =>
      rw [if_neg hearlier]
      exact hm.node slot stored hstored
  · exact Nat.succ_le_succ hm.stored
  · exact Nat.succ_le_succ hm.stored_right

/-! What is read. -/

theorem resolve {slot : Nat} {h h' : Handle} (hat : t.At slot h h') :
    Matches (fun node node' => slot < (w.arena t.left).size ∧ node.Corresponds (t.Below slot) node')
      (w.resolve t.left h) (w'.resolve t.right h') := by
  obtain ⟨copy, rfl, rfl⟩ := hat
  rw [World.resolve_of_inReach hm.opened .refl, World.resolve_of_inReach hm.opened_right .refl]
  simp only [World.resolveOwn, ArenaId.handle, hm.generation, hm.generation_right, ne_eq,
    not_true_eq_false, if_false, Arena.nodeAt?]
  cases hnode : (w.arena t.left).nodes[slot]? with
  | none =>
    have hout : (w'.arena t.right).nodes[slot]? = none := by
      rw [Array.getElem?_eq_none_iff] at hnode ⊢
      exact hm.size.symm.le.trans hnode
    rw [hout]
    exact .error (.invalidHandle ..)
  | some node =>
    obtain ⟨node', hnode', hcorresponds⟩ := hm.node slot node hnode
    rw [hnode']
    exact .ok ⟨(Array.getElem?_eq_some_iff.mp hnode).1, hcorresponds⟩

theorem checkMember {info : TagInfo} {index fuel fuel' slot : Nat} {node node' : Node}
    (hnode : node.Corresponds (t.Below slot) node') (hfuel : slot < fuel) (hfuel' : slot < fuel') :
    Matches Eq (w.checkMember t.left info index fuel node)
      (w'.checkMember t.right info index fuel' node') := by
  induction fuel generalizing fuel' slot node node' with
  | zero => cases hfuel
  | succ fuel ih =>
    cases fuel' with
    | zero => cases hfuel'
    | succ fuel' =>
      unfold World.checkMember
      rw [hm.options]
      cases hnode with
      | element => exact matches_self (fun _ => rfl) _
      | text => exact matches_self (fun _ => rfl) _
      | rendered => exact matches_self (fun _ => rfl) _
      | fragment hchildren =>
        refine Matches.forM hchildren fun child child' ⟨earlier, hearlier, hat⟩ => ?_
        exact (hm.resolve hat).bind fun member member' hmember =>
          ih hmember.2 (by omega) (by omega)

theorem checkPart {info : TagInfo} {index : Nat} {part part' : Part}
    (hpart : t.SamePart part part') :
    Matches Eq (w.checkPart t.left info index part) (w'.checkPart t.right info index part') := by
  cases hpart with
  | text value =>
    rw [World.checkPart, World.checkPart, hm.options]
    exact matches_self (fun _ => rfl) _
  | node hsame =>
    obtain ⟨slot, hat⟩ := hsame
    refine (hm.resolve hat).bind fun node node' ⟨hslot, hnode⟩ => ?_
    obtain ⟨hfuel, hfuel'⟩ := hm.lt_depthBound hslot
    exact hm.checkMember hnode hfuel hfuel'

theorem checkParts {info : TagInfo} {index : Nat} {parts parts' : List Part}
    (hparts : List.Forall₂ t.SamePart parts parts') :
    Matches Eq (w.checkParts t.left info index parts)
      (w'.checkParts t.right info index parts') := by
  induction hparts generalizing index with
  | nil => exact .ok rfl
  | cons hfirst _ ih => exact (hm.checkPart hfirst).bind fun _ _ _ => ih

theorem accept (tag : String) (input : AttributeInput) {parts parts' : List Part}
    (hparts : List.Forall₂ t.SamePart parts parts') :
    Matches Eq (w.accept t.left tag input parts) (w'.accept t.right tag input parts') := by
  unfold World.accept
  rw [hm.options]
  refine (matches_self (fun _ => rfl) _).bind fun info _ hinfo => ?_
  subst hinfo
  refine (matches_self (fun _ => rfl) _).bind fun given _ hgiven => ?_
  subst hgiven
  split
  · refine (matches_self (fun _ => rfl) _).bind fun _ _ _ => ?_
    exact (hm.checkParts hparts).bind fun _ _ _ => .ok rfl
  · exact .ok rfl

theorem renderNode {fuel fuel' slot : Nat} {h h' : Handle} (hat : t.At slot h h')
    (hfuel : min slot (w.arena t.left).size < fuel)
    (hfuel' : min slot (w.arena t.left).size < fuel') :
    Matches Eq (w.renderNode t.left fuel h) (w'.renderNode t.right fuel' h') := by
  -- A slot beyond the last has no node, so no more levels than there are nodes count.
  induction fuel generalizing fuel' slot h h' with
  | zero => cases hfuel
  | succ fuel ih =>
    cases fuel' with
    | zero => cases hfuel'
    | succ fuel' =>
      rw [World.renderNode, World.renderNode]
      refine (hm.resolve hat).bind fun node node' ⟨hslot, hnode⟩ => ?_
      have hall : Matches Eq (node.children.mapM (w.renderNode t.left fuel))
          (node'.children.mapM (w'.renderNode t.right fuel')) := by
        rw [← List.forall₂_eq_eq_eq]
        refine Matches.mapM hnode.children fun child child' ⟨earlier, hearlier, hchild⟩ => ?_
        exact ih hchild (by omega) (by omega)
      cases hnode with
      | text value => exact .ok rfl
      | rendered markup => exact .ok rfl
      | fragment => exact hall.bind fun _ _ hsame => .ok (congrArg String.join hsame)
      | element =>
        refine hall.bind fun content content' hsame => .ok ?_
        rw [hsame]
        rfl

theorem render {h h' : Handle} (hsame : t.Same h h') (withDoctype : Bool) :
    Matches Eq (w.render t.left h withDoctype) (w'.render t.right h' withDoctype) := by
  obtain ⟨slot, hat⟩ := hsame
  have hstored := hm.stored
  have hstored' := hm.stored_right
  have hsize := hm.size
  refine (hm.renderNode hat ?_ ?_).bind fun markup markup' hmarkup => .ok (by rw [hmarkup])
  · unfold World.depthBound
    omega
  · unfold World.depthBound
    omega

end Mirrors

end MarkupArena
