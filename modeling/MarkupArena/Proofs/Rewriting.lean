import MarkupArena.Proofs.Making
import MarkupArena.Proofs.Trees
import MarkupArena.Revision

/-! The revision of a tree as a recursion on the tree alone, and that the revision of a stored tree
stores just what the recursion says. -/
namespace MarkupArena

/-- What a change puts in the place of a node, or `none` if the node stays. It stays if it is to be
replaced with its very handle, and gives way to a copy of that. -/
def Change.replacements? (handle : Handle) : Change → Option (List Replacement)
  | .keep => none
  | .replace (.stored h) => if h = handle then none else some [.stored h]
  | .replace (.described description) => some [.described description]
  | .remove => some []
  | .splice nodes => some nodes

example : (Change.replace (.stored (ArenaId.handle ⟨0⟩ 0 0 1))).replacements?
    (ArenaId.handle ⟨0⟩ 0 0) = some [.stored (ArenaId.handle ⟨0⟩ 0 0 1)] := rfl

section
variable (schema : Schema) (given : Handle → Content)

def Part.content : Part → Content
  | .text value => .text value
  | .node handle => given handle

/-- What is built from a description, unless the schema does not know the tag or the attributes are
malformed. -/
def Description.content? : Description → Option Content
  | .element tag input children => do
    let info ← schema.find? tag
    let attributes ← (input.normalize tag).toOption
    return .element info attributes (children.parts.map (Part.content given))
  | .text value => some (.text value)
  | .fragment children => some (.fragment (children.parts.map (Part.content given)))
  | .rendered markup => some (.rendered markup)

def Replacement.content? : Replacement → Option Content
  | .stored handle => some (given handle)
  | .described description => description.content? schema given

end

def Part.handle? : Part → Option Handle
  | .text _ => none
  | .node handle => some handle

/-- The stored nodes that a description makes use of. -/
def Description.handles : Description → List Handle
  | .element _ _ children => children.parts.filterMap Part.handle?
  | .fragment children => children.parts.filterMap Part.handle?
  | _ => []

def Replacement.handles : Replacement → List Handle
  | .stored handle => [handle]
  | .described description => description.handles

namespace Tree

section
variable (schema : Schema) (given : Handle → Content) (visitor : Node → Handle → Nat → Change)

mutual

/-- What becomes of a tree at a depth. A node that stays gets what became of its children, in
order; replacements are taken as they are. -/
def revised? (depth : Nat) : Tree → Option (List Content)
  | node handle stored children =>
    match (visitor stored handle depth).replacements? handle with
    | none => (revisedAll? (depth + 1) children).map fun contents => [stored.contentWith contents]
    | some nodes => nodes.mapM (Replacement.content? schema given)

def revisedAll? (depth : Nat) : List Tree → Option (List Content)
  | [] => some []
  | tree :: rest => do
    let first ← revised? depth tree
    let others ← revisedAll? depth rest
    return first ++ others

end

end

section
variable (visitor : Node → Handle → Nat → Change)

mutual

/-- The stored nodes that a visitor supplies in the course of a revision. -/
def supplied (depth : Nat) : Tree → List Handle
  | node handle stored children =>
    match (visitor stored handle depth).replacements? handle with
    | none => suppliedAll (depth + 1) children
    | some nodes => nodes.flatMap Replacement.handles

def suppliedAll (depth : Nat) : List Tree → List Handle
  | [] => []
  | tree :: rest => supplied depth tree ++ suppliedAll depth rest

end

end

end Tree

/-- A single content, or a fragment of all there are. -/
def Content.joined : List Content → Content
  | [only] => only
  | contents => .fragment contents

section
variable {w₀ : World} {dest : ArenaId} {given : Handle → Content}

theorem Build.Placed.denotes {w : World} {part : Part} {h : Handle} (hp : Placed w dest part h)
    (hgiven : ∀ r, part.handle? = some r → w.Denotes dest r (given r)) :
    w.Denotes dest h (part.content given) := by
  cases part with
  | text value => exact World.denotes_of_resolve hp.resolve .nil
  | node g =>
    obtain rfl : h = g := hp
    exact hgiven h rfl

theorem Build.denote_of_placed {w : World} {parts : List Part} {handles : List Handle}
    (hp : List.Forall₂ (Placed w dest) parts handles)
    (hgiven : ∀ r ∈ parts.filterMap Part.handle?, w.Denotes dest r (given r)) :
    List.Forall₂ (w.Denotes dest) handles (parts.map (Part.content given)) := by
  induction hp with
  | nil => exact .nil
  | @cons part h parts handles hfirst _ ih =>
    refine .cons (hfirst.denotes fun r hr => hgiven r ?_) (ih fun r hr => hgiven r ?_)
    · exact List.mem_filterMap.mpr ⟨part, List.mem_cons_self, hr⟩
    · obtain ⟨other, hother, hhandle⟩ := List.mem_filterMap.mp hr
      exact List.mem_filterMap.mpr ⟨other, List.mem_cons_of_mem _ hother, hhandle⟩

end

section
variable {w₀ : World} {dest : ArenaId} (given : Handle → Content)

/-- What is built from a description says what the description says. -/
theorem Build.yields_realize (hdest : w₀.Opened dest) (description : Description) :
    Yields w₀ (fun w h => (∀ r ∈ description.handles, w.Denotes dest r (given r)) →
      ∃ content, description.content? (w₀.arena dest).options.schema given = some content ∧
        w.Denotes dest h content) (realize dest description) := by
  cases description with
  | element tag input children =>
    refine (yields_elementAt hdest none tag input [children]).weaken ?_
    rintro w h - ⟨info, attributes, handles, hinfo, hattributes, hplaced, hold⟩ hgiven
    rw [Child.listParts_singleton] at hplaced
    refine ⟨_, ?_, World.denotes_of_resolve hold.resolve (denote_of_placed hplaced hgiven)⟩
    simp [Description.content?, hinfo, hattributes, Except.toOption, Node.contentWith, withSite]
  | text value =>
    refine (yields_allocate hdest _).weaken fun w h _ hold _ => ?_
    exact ⟨_, rfl, World.denotes_of_resolve hold.resolve .nil⟩
  | fragment children =>
    refine (yields_fragment hdest [children]).weaken ?_
    rintro w h - ⟨handles, hplaced, hold⟩ hgiven
    rw [Child.listParts_singleton] at hplaced
    exact ⟨_, rfl, World.denotes_of_resolve hold.resolve (denote_of_placed hplaced hgiven)⟩
  | rendered markup =>
    refine (yields_allocate hdest _).weaken fun w h _ hold _ => ?_
    exact ⟨_, rfl, World.denotes_of_resolve hold.resolve .nil⟩

theorem Revision.yields_materialize (hdest : w₀.Opened dest) (replacement : Replacement) :
    Yields w₀ (fun w h => (∀ r ∈ replacement.handles, w.Denotes dest r (given r)) →
      ∃ content, replacement.content? (w₀.arena dest).options.schema given = some content ∧
        w.Denotes dest h content) (materialize dest replacement) := by
  cases replacement with
  | stored handle =>
    exact Yields.pure fun w _ hgiven => ⟨_, rfl, hgiven handle (List.mem_singleton.mpr rfl)⟩
  | described description => exact Build.yields_realize given hdest description

theorem Revision.yields_materializeAll (hdest : w₀.Opened dest) (nodes : List Replacement) :
    Yields w₀ (fun w handles =>
      (∀ r ∈ nodes.flatMap Replacement.handles, w.Denotes dest r (given r)) →
      ∃ contents, nodes.mapM (Replacement.content? (w₀.arena dest).options.schema given) =
        some contents ∧ List.Forall₂ (w.Denotes dest) handles contents)
      (nodes.mapM (materialize dest)) := by
  refine (Yields.mapM fun node _ => yields_materialize given hdest node).weaken ?_
  intro w handles _ hall
  induction hall with
  | nil => exact fun _ => ⟨[], rfl, .nil⟩
  | @cons node h nodes handles hfirst _ ih =>
    intro hgiven
    obtain ⟨content, hcontent, hdenotes⟩ := hfirst fun r hr =>
      hgiven r (List.mem_flatMap.mpr ⟨node, List.mem_cons_self, hr⟩)
    obtain ⟨contents, hcontents, hrest⟩ := ih fun r hr => by
      obtain ⟨other, hother, hr⟩ := List.mem_flatMap.mp hr
      exact hgiven r (List.mem_flatMap.mpr ⟨other, List.mem_cons_of_mem _ hother, hr⟩)
    refine ⟨content :: contents, ?_, .cons hdenotes hrest⟩
    rw [List.mapM_cons, hcontent, hcontents]
    rfl

end

section
variable {w₀ : World} {dest : ArenaId}

theorem Build.yields_withChildren (hdest : w₀.Opened dest) (e : Element)
    (children : List Handle) :
    Yields w₀ (fun w h => w.Holds dest h (.element { e with children }))
      (withChildren dest e children) := by
  intro w w' h hw hrun
  rw [perform_withChildren] at hrun
  split at hrun
  next => exact yields_allocate hdest _ w w' h hw hrun
  next => cases hrun

/-- A node whose children were revised says what it said, with what became of its children. -/
theorem Revision.yields_settle (hdest : w₀.Opened dest) {node : Node} {h : Handle}
    (hnode : w₀.resolve dest h = .ok node) (results : List (List Handle)) :
    Yields w₀ (fun w h' => results.length = node.children.length → ∀ contents,
      List.Forall₂ (w.Denotes dest) results.flatten contents →
        w.Denotes dest h' (node.contentWith contents)) (settle dest node h results) := by
  unfold settle
  split
  next hsame =>
    refine Yields.pure fun w hw _ contents hcontents => ?_
    refine World.denotes_of_resolve (World.resolve_grow hw hnode) ?_
    have hflat : results.flatten = node.children := by
      rw [hsame, ← List.flatMap_def, List.flatMap_singleton']
    exact hflat ▸ hcontents
  next hchanged =>
    cases node with
    | element e =>
      refine (Build.yields_withChildren hdest e _).weaken fun w h' _ hold _ contents hcontents => ?_
      have hdenotes := World.denotes_of_resolve hold.resolve hcontents
      exact hdenotes
    | fragment children =>
      refine (yields_allocate hdest _).weaken fun w h' _ hold _ contents hcontents => ?_
      have hdenotes := World.denotes_of_resolve hold.resolve hcontents
      exact hdenotes
    | text value =>
      exact (yields_allocate hdest _).weaken fun _ _ _ _ hlength =>
        absurd (List.length_eq_zero_iff.mp hlength) hchanged
    | rendered markup =>
      exact (yields_allocate hdest _).weaken fun _ _ _ _ hlength =>
        absurd (List.length_eq_zero_iff.mp hlength) hchanged

end

namespace Revision

/-- Work on a node of a tree: the node stays and its children are visited, or it gives way to its
replacements. -/
theorem visit_eq (source dest : ArenaId) (visitor : Node → Handle → Nat → Change)
    (bound depth : Nat) (h : Handle) :
    visit (m := Action) source dest (fun n h d => pure (visitor n h d)) (bound + 1) depth h = (do
      let node ← resolve source h
      match (visitor node h depth).replacements? h with
      | none =>
        let results ← node.children.mapM
          (visit source dest (fun n h d => pure (visitor n h d)) bound (depth + 1))
        let kept ← settle dest node h results
        return [kept]
      | some nodes => nodes.mapM (materialize dest)) := by
  refine congrArg (resolve source h >>= ·) (funext fun node => ?_)
  rw [pure_bind]
  cases visitor node h depth with
  | keep => rfl
  | replace replacement =>
    cases replacement with
    | stored handle =>
      by_cases hsame : handle = h
      · simp only [Change.replacements?, if_pos hsame]
        rfl
      · simp only [Change.replacements?, if_neg hsame]
        rfl
    | described description =>
      have hone : [Replacement.described description].mapM (materialize dest) = (do
          return [← materialize dest (.described description)]) := by
        rw [List.mapM_cons]
        rfl
      exact hone.symm
  | remove => rfl
  | splice nodes => rfl

/-- Handles stand for what becomes of a tree at a depth, provided that what the visitor supplies
stands for what is given. -/
def Reaches (w : World) (dest : ArenaId) (schema : Schema) (given : Handle → Content)
    (visitor : Node → Handle → Nat → Change) (depth : Nat) (tree : Tree) (handles : List Handle) :
    Prop :=
  (∀ r ∈ tree.supplied visitor depth, w.Denotes dest r (given r)) →
    ∃ contents, tree.revised? schema given visitor depth = some contents ∧
      List.Forall₂ (w.Denotes dest) handles contents

section
variable {w : World} {source dest : ArenaId} {schema : Schema} {given : Handle → Content}
  {visitor : Node → Handle → Nat → Change}

theorem denote_revisedAll {depth : Nat} {trees : List Tree} {results : List (List Handle)}
    (h : List.Forall₂ (Reaches w dest schema given visitor depth) trees results)
    (hgiven : ∀ r ∈ Tree.suppliedAll visitor depth trees, w.Denotes dest r (given r)) :
    ∃ contents, Tree.revisedAll? schema given visitor depth trees = some contents ∧
      List.Forall₂ (w.Denotes dest) results.flatten contents := by
  induction h with
  | nil => exact ⟨[], rfl, .nil⟩
  | @cons tree handles trees results hfirst _ ih =>
    obtain ⟨first, hrevised, hdenotes⟩ := hfirst fun r hr =>
      hgiven r (List.mem_append_left _ hr)
    obtain ⟨others, hothers, hrest⟩ := ih fun r hr => hgiven r (List.mem_append_right _ hr)
    refine ⟨first ++ others, ?_, List.rel_append hdenotes hrest⟩
    rw [Tree.revisedAll?, hrevised, hothers]
    rfl

/-- A visit to a stored tree comes to what the recursion says about the tree. -/
theorem yields_visit {w₀ : World} (given : Handle → Content)
    (visitor : Node → Handle → Nat → Change) (hdest : w₀.Opened dest)
    (hreach : w₀.InReach dest source) (bound depth : Nat) {tree : Tree}
    (hstored : tree.Stored w₀ source) :
    Yields w₀ (fun w => Reaches w dest (w₀.arena dest).options.schema given visitor depth tree)
      (visit (m := Action) source dest (fun n h d => pure (visitor n h d)) bound depth
        tree.handle) := by
  -- The tree is stored in `w₀` and in all that grows from it, so `w₀` stays fixed.
  induction bound generalizing depth tree with
  | zero => exact fun w w' x _ hrun => by cases hrun
  | succ bound ih =>
    cases hstored with
    | @node handle stored children hresolve hhandles hchildren =>
    have hlook : ∀ w, World.Grows w₀ w → perform (resolve source handle) w = (.ok stored, w) := by
      intro w hw
      rw [resolve, perform_observe, World.resolve_grow hw hresolve]
    rw [visit_eq]
    refine Yields.after hlook ?_
    show Yields w₀ _ (match (visitor stored handle depth).replacements? handle with
      | none => _
      | some nodes => _)
    cases hchange : (visitor stored handle depth).replacements? handle with
    | some nodes =>
      refine (yields_materializeAll given hdest nodes).weaken fun w handles _ hall hgiven => ?_
      simp only [Tree.supplied, hchange] at hgiven
      simp only [Tree.revised?, hchange]
      exact hall hgiven
    | none =>
      have hvisits := Yields.mapM fun child hchild => ih (depth + 1) (hchildren child hchild)
      have hroot : w₀.resolve dest handle = .ok stored := World.resolve_of_reach hreach hresolve
      simp only
      rw [← hhandles, List.mapM_map]
      refine hvisits.bind fun results => ?_
      refine (yields_settle hdest hroot results).bind fun kept => ?_
      refine Yields.pure fun w _ hsettle hall hgiven => ?_
      simp only [Tree.supplied, hchange] at hgiven
      obtain ⟨contents, hcontents, hdenote⟩ := denote_revisedAll hall hgiven
      have hlength : results.length = stored.children.length := by
        rw [← hall.length_eq, ← hhandles, List.length_map]
      refine ⟨[stored.contentWith contents], ?_, .cons (hsettle hlength contents hdenote) .nil⟩
      simp only [Tree.revised?, hchange, hcontents, Option.map_some]

end

/-- A revision that succeeds ends with a handle for what the recursion says about the tree, seen
from the destination. -/
theorem denotes_revise {w w' : World} {source dest : ArenaId} {tree : Tree}
    {visitor : Node → Handle → Nat → Change} {given : Handle → Content} {h : Handle}
    (hdest : w.Opened dest) (hstored : tree.Stored w source)
    (hrun : perform (revise (m := Action) source dest tree.handle
      fun n h d => pure (visitor n h d)) w = (.ok h, w'))
    (hgiven : ∀ r ∈ tree.supplied visitor 0, w'.Denotes dest r (given r)) :
    ∃ contents, tree.revised? (w.arena dest).options.schema given visitor 0 = some contents ∧
      ∀ content, w'.Denotes dest h content ↔ content = Content.joined contents := by
  obtain ⟨w₁, hlink, hgrow, hreach⟩ := perform_link_reaches hdest source
  have hdest₁ := hgrow.opened dest hdest
  unfold revise at hrun
  rw [perform_bind] at hrun
  simp only [monadLift_self, hlink, perform_bind, perform_observe] at hrun
  have hsettled : ∀ content, w'.Denotes dest h content →
      ∀ other, w'.Denotes dest h other ↔ other = content :=
    fun content hc other => ⟨fun ho => ho.unique hc, fun he => he ▸ hc⟩
  rcases hvisit : perform (visit (m := Action) source dest (fun n h d => pure (visitor n h d))
    w₁.depthBound 0 tree.handle) w₁ with ⟨f | results, w₂⟩
  · rw [hvisit] at hrun
    cases hrun
  · rw [hvisit] at hrun
    obtain ⟨hgrow₂, hreaches⟩ := yields_visit given visitor hdest₁ hreach w₁.depthBound 0
      (hstored.grow hgrow) w₁ w₂ results (.refl w₁) hvisit
    rw [hgrow.options hdest] at hreaches
    have hdest₂ := hgrow₂.opened dest hdest₁
    rcases results with _ | ⟨only, _ | ⟨second, rest⟩⟩
    · obtain ⟨hgrow₃, hhold⟩ := yields_allocate hdest₂ (.fragment []) w₂ w' h (.refl w₂) hrun
      obtain ⟨contents, hrevised, hdenote⟩ := hreaches w' hgrow₃ hgiven
      cases hdenote
      exact ⟨[], hrevised, hsettled _ (World.denotes_of_resolve (hhold w' (.refl w')).resolve .nil)⟩
    · obtain ⟨hh, rfl⟩ := Prod.mk.inj hrun
      obtain rfl := Except.ok.inj hh
      obtain ⟨contents, hrevised, hdenote⟩ := hreaches w₂ (.refl w₂) hgiven
      cases hdenote with
      | cons hfirst hrest =>
        cases hrest
        exact ⟨_, hrevised, hsettled _ hfirst⟩
    · obtain ⟨hgrow₃, hhold⟩ := yields_allocate hdest₂ (.fragment (only :: second :: rest)) w₂ w' h
        (.refl w₂) hrun
      obtain ⟨contents, hrevised, hdenote⟩ := hreaches w' hgrow₃ hgiven
      have hfragment := World.denotes_of_resolve (hhold w' (.refl w')).resolve hdenote
      cases hdenote with
      | cons _ hrest =>
        cases hrest
        exact ⟨_, hrevised, hsettled _ hfragment⟩

/-- Puts a text before every node. -/
def prepend : Node → Handle → Nat → Change := fun _ h _ =>
  .splice [.described (.text "new"), .stored h]

/-- The revision has put a text into the second arena. -/
def amidPrepend : World := linkedText.store ⟨1⟩ (.text "new")

def afterPrepend : World :=
  amidPrepend.store ⟨1⟩ (.fragment [ArenaId.handle ⟨1⟩ 0 0, ArenaId.handle ⟨0⟩ 0 0])

theorem perform_prepend :
    perform (revise (m := Action) ⟨0⟩ ⟨1⟩ oldText.handle fun n h d => pure (prepend n h d))
      (twoArenas.store ⟨0⟩ (.text "old")) = (.ok (ArenaId.handle ⟨1⟩ 0 1), afterPrepend) := by
  have hold : linkedText.Holds ⟨0⟩ oldText.handle (.text "old") := ⟨0, 0, rfl, rfl⟩
  have hlink : perform (link ⟨1⟩ ⟨0⟩) (twoArenas.store ⟨0⟩ (.text "old")) =
      (.ok ⟨⟩, linkedText) := rfl
  have hlook : perform (resolve ⟨0⟩ oldText.handle) linkedText =
      (.ok (.text "old"), linkedText) := by
    rw [resolve, perform_observe, hold.resolve]
  have hvisit : perform (visit (m := Action) ⟨0⟩ ⟨1⟩ (fun n h d => pure (prepend n h d))
      linkedText.depthBound 0 oldText.handle) linkedText =
      (.ok [ArenaId.handle ⟨1⟩ 0 0, oldText.handle], amidPrepend) := by
    show perform (visit (m := Action) _ _ _ (1 + 1) _ _) _ = _
    rw [visit_eq, perform_bind, hlook]
    rfl
  have hstore : perform (allocate ⟨1⟩ (.fragment [ArenaId.handle ⟨1⟩ 0 0, oldText.handle]))
      amidPrepend = (.ok (ArenaId.handle ⟨1⟩ 0 1), afterPrepend) := by
    refine allocate_of_resolves rfl fun child hchild => ?_
    have hgrow := World.grows_store linkedText ⟨1⟩ (.text "new")
    rcases List.mem_pair.mp hchild with rfl | rfl
    · exact ⟨_, World.Holds.resolve ⟨0, 0, rfl, rfl⟩⟩
    · exact ⟨_, World.resolve_eq_ok_iff.mpr ⟨_, reach_linkedText.grow hgrow, hold.grow hgrow⟩⟩
  unfold revise
  rw [perform_bind]
  simp only [monadLift_self, hlink, perform_bind, perform_observe, hvisit]
  exact hstore

theorem denotes_revise_of_prepend : ∃ w w' h, w.Opened ⟨1⟩ ∧ oldText.Stored w ⟨0⟩ ∧
    perform (revise (m := Action) ⟨0⟩ ⟨1⟩ oldText.handle fun n h d => pure (prepend n h d)) w =
      (.ok h, w') ∧
    ∀ content, w'.Denotes ⟨1⟩ h content ↔ content = .fragment [.text "new", .text "old"] := by
  have hopened : (twoArenas.store ⟨0⟩ (.text "old")).Opened ⟨1⟩ := by decide
  have hgrow : World.Grows linkedText afterPrepend :=
    (World.grows_store ..).trans (World.grows_store ..)
  have hold : afterPrepend.resolve ⟨1⟩ (ArenaId.handle ⟨0⟩ 0 0) = .ok (.text "old") :=
    World.resolve_eq_ok_iff.mpr ⟨_, reach_linkedText.grow hgrow, 0, 0, rfl, rfl⟩
  have hgiven : ∀ r ∈ oldText.supplied prepend 0, afterPrepend.Denotes ⟨1⟩ r (.text "old") := by
    intro r hr
    obtain rfl := List.mem_singleton.mp hr
    exact World.denotes_of_resolve hold .nil
  obtain ⟨contents, hrevised, hdenotes⟩ :=
    denotes_revise hopened stored_oldText perform_prepend hgiven
  obtain rfl := Option.some.inj hrevised
  exact ⟨_, _, _, hopened, stored_oldText, perform_prepend, hdenotes⟩

end Revision

end MarkupArena
