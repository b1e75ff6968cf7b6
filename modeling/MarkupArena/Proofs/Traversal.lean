import MarkupArena.Proofs.Depth
import MarkupArena.Proofs.Members
import MarkupArena.Render.Preserialized

/-! What traversals of a stored tree come to, as functions of what the tree says: its markup, the
summary of its top level, and whether it may stand in a tag. -/
namespace MarkupArena

/-- A traversal of the children of a stored node, if it comes to a function of what they say. -/
theorem Tree.mapM_children {α : Type} {f : Handle → Except Failure α} {g : Content → α}
    {stored : Node} {children : List Tree} (hhandles : children.map Tree.handle = stored.children)
    (h : ∀ child ∈ children, f child.handle = .ok (g child.content)) :
    stored.children.mapM f = .ok ((contents children).map g) := by
  rw [← hhandles, List.mapM_map, contents_eq_map, List.map_map]
  exact mapM_eq_ok h

/-- The markup of a node around that of its children. -/
def Node.markupWith (node : Node) (children : List String) : String :=
  match node with
  | .element e => World.startTagText e ++ String.join children ++ World.endTagText e
  | .text value => Text.escapeText value
  | .fragment _ => String.join children
  | .rendered markup => markup.html

namespace Content

mutual

def markup : Content → String
  | element info attributes children =>
    World.startTagText ⟨info, attributes, []⟩ ++ String.join (markups children) ++
      World.endTagText ⟨info, attributes, []⟩
  | text value => Text.escapeText value
  | fragment children => String.join (markups children)
  | rendered markup => markup.html

def markups : List Content → List String
  | [] => []
  | content :: rest => content.markup :: markups rest

end

mutual

/-- The tags at the top level, in order, and whether there is text among them. -/
def summary : Content → List String × Bool
  | element info _ _ => ([info.tagName], false)
  | text value => ([], !Text.onlyMarkupSpace value)
  | fragment children =>
    ((summaries children).flatMap Prod.fst, (summaries children).any Prod.snd)
  | rendered markup => (markup.tagNames, markup.hasText)

def summaries : List Content → List (List String × Bool)
  | [] => []
  | content :: rest => content.summary :: summaries rest

end

theorem markups_eq_map (contents : List Content) : markups contents = contents.map markup := by
  induction contents with
  | nil => rfl
  | cons content rest ih => rw [markups, List.map_cons, ih]

theorem summaries_eq_map (contents : List Content) : summaries contents = contents.map summary := by
  induction contents with
  | nil => rfl
  | cons content rest ih => rw [summaries, List.map_cons, ih]

theorem markup_contentWith (node : Node) (children : List Content) :
    (node.contentWith children).markup = node.markupWith (markups children) := by
  cases node <;> rfl

/-- The content rendered once, with the summary of its top level. -/
def preserialized (content : Content) : Rendered :=
  ⟨content.markup, Text.distinct content.summary.1, content.summary.2⟩

end Content

namespace World

/-- The summary of a top level is permitted in a tag. -/
def PermitsSummary (schema : Schema) (info : TagInfo) (summary : List String × Bool) : Prop :=
  (∀ name ∈ summary.1, schema.checkChild info.tagName name = .ok ()) ∧
    (summary.2 → info.allowsText)

variable {w : World} {a : ArenaId}

/-- A node is rendered by rendering its children. -/
theorem renderNode_of_resolve {h : Handle} {node : Node} (hr : w.resolve a h = .ok node)
    (fuel : Nat) : w.renderNode a (fuel + 1) h =
      node.markupWith <$> node.children.mapM (w.renderNode a fuel) := by
  rw [renderNode, hr]
  cases node with
  | element e =>
    show (e.children.mapM (w.renderNode a fuel) >>= fun content =>
      pure (startTagText e ++ String.join content ++ endTagText e)) = _
    rw [← map_eq_pure_bind]
    rfl
  | text value => rfl
  | fragment children =>
    show (children.mapM (w.renderNode a fuel) >>= fun content => pure (String.join content)) = _
    rw [← map_eq_pure_bind]
    rfl
  | rendered markup => rfl

theorem renderNode_of_error {h : Handle} {f : Failure} (hr : w.resolve a h = .error f)
    (fuel : Nat) : w.renderNode a (fuel + 1) h = .error f := by
  rw [renderNode, hr]
  rfl

/-- A stored tree is rendered as what it says. -/
theorem renderNode_of_stored {tree : Tree} (hstored : tree.Stored w a) {fuel : Nat}
    (hfuel : tree.height ≤ fuel) : w.renderNode a fuel tree.handle = .ok tree.content.markup := by
  induction hstored generalizing fuel with
  | @node handle stored children hresolve hhandles hchildren ih =>
    cases fuel with
    | zero => cases hfuel
    | succ fuel =>
      have hall := Tree.mapM_children hhandles fun child hchild => ih child hchild
        ((Tree.height_le_heights hchild).trans (Nat.le_of_succ_le_succ hfuel))
      rw [Tree.handle, renderNode_of_resolve hresolve, hall, Tree.content,
        Content.markup_contentWith, Content.markups_eq_map]
      rfl

theorem topLevel_of_stored {tree : Tree} (hstored : tree.Stored w a) {fuel : Nat}
    (hfuel : tree.height ≤ fuel) : w.topLevel a fuel tree.handle = .ok tree.content.summary := by
  induction hstored generalizing fuel with
  | @node handle stored children hresolve hhandles hchildren ih =>
    cases fuel with
    | zero => cases hfuel
    | succ fuel =>
      have hall := Tree.mapM_children hhandles fun child hchild => ih child hchild
        ((Tree.height_le_heights hchild).trans (Nat.le_of_succ_le_succ hfuel))
      rw [← Content.summaries_eq_map] at hall
      rw [Tree.handle, topLevel, hresolve, Tree.content]
      cases stored with
      | element e => rfl
      | text value => rfl
      | fragment handles =>
        show (handles.mapM (w.topLevel a fuel) >>= fun members =>
          pure (members.flatMap Prod.fst, members.any Prod.snd)) = _
        rw [show handles.mapM (w.topLevel a fuel) = _ from hall]
        rfl
      | rendered markup => rfl

/-- Preserializing succeeds for every tree that is all there. -/
theorem Ordered.preserialize_eq (hw : w.Ordered) {tree : Tree} (hstored : tree.Stored w a) :
    w.preserialize a tree.handle = .ok tree.content.preserialized := by
  have hfuel := hw.height_le_depthBound hstored
  unfold preserialize render
  rw [topLevel_of_stored hstored hfuel, renderNode_of_stored hstored hfuel]
  rfl

theorem checkText_eq_ok_iff {schema : Schema} {info : TagInfo}
    (hinfo : schema.find? info.tagName = some info) {value : String} :
    schema.checkText info.tagName value = .ok () ↔
      (!Text.onlyMarkupSpace value → info.allowsText) := by
  unfold Schema.checkText Schema.require Schema.lookup
  rw [hinfo]
  show (if info.allowsText || Text.onlyMarkupSpace value then Except.ok () else
    Except.error (schema.refuseChild info.tagName Schema.textChild)) = Except.ok () ↔ _
  cases info.allowsText <;> cases Text.onlyMarkupSpace value <;> simp

theorem permitsSummary_members {schema : Schema} {info : TagInfo}
    {members : List (List String × Bool)} :
    PermitsSummary schema info (members.flatMap Prod.fst, members.any Prod.snd) ↔
      ∀ member ∈ members, PermitsSummary schema info member := by
  unfold PermitsSummary
  simp only [List.mem_flatMap, List.any_eq_true]
  constructor
  · rintro ⟨hnames, htext⟩ member hmember
    exact ⟨fun name hname => hnames name ⟨member, hmember, hname⟩,
      fun hhas => htext ⟨member, hmember, hhas⟩⟩
  · intro h
    refine ⟨?_, ?_⟩
    · rintro name ⟨member, hmember, hname⟩
      exact (h member hmember).1 name hname
    · rintro ⟨member, hmember, hhas⟩
      exact (h member hmember).2 hhas

/-- Every failure is the schema's refusal of the child at an index. -/
def RefusesChild (index : Nat) (outcome : Except Failure Unit) : Prop :=
  ∀ f, outcome = .error f → ∃ why, f = .rejected why (some index)

theorem refusesChild_atChild (index : Nat) (outcome : Except Rejection Unit) :
    RefusesChild index (atChild index outcome) := by
  intro f hf
  cases outcome with
  | error why => exact ⟨why, (Except.error.inj hf).symm⟩
  | ok => cases hf

/-- A stored tree may stand in a tag exactly if the summary of its top level is permitted there,
and where it may not, the refusal has the index of the child. -/
theorem checkMember_of_stored {info : TagInfo}
    (hinfo : (w.arena a).options.schema.find? info.tagName = some info) (index : Nat) {tree : Tree}
    (hstored : tree.Stored w a) {fuel : Nat} (hfuel : tree.height ≤ fuel) :
    (w.checkMember a info index fuel tree.root = .ok () ↔
      PermitsSummary (w.arena a).options.schema info tree.content.summary) ∧
    RefusesChild index (w.checkMember a info index fuel tree.root) := by
  induction hstored generalizing fuel with
  | @node handle stored children hresolve hhandles hchildren ih =>
    cases fuel with
    | zero => cases hfuel
    | succ fuel =>
      have hchild : ∀ child ∈ children, (do
          let member ← w.resolve a child.handle
          w.checkMember a info index fuel member) = w.checkMember a info index fuel child.root :=
        fun child hmem => by
          rw [(hchildren child hmem).resolve]
          rfl
      have hall : ∀ child ∈ children, _ := fun child hmem => ih child hmem
        ((Tree.height_le_heights hmem).trans (Nat.le_of_succ_le_succ hfuel))
      rw [Tree.content]
      cases stored with
      | element e =>
        refine ⟨atChild_eq_ok_iff.trans ?_, refusesChild_atChild index _⟩
        simp [Node.contentWith, Content.summary, PermitsSummary, Element.tag]
      | text value =>
        refine ⟨atChild_eq_ok_iff.trans ?_, refusesChild_atChild index _⟩
        rw [checkText_eq_ok_iff hinfo]
        simp [Node.contentWith, Content.summary, PermitsSummary]
      | rendered markup =>
        refine ⟨?_, refusesChild_atChild index _⟩
        exact atChild_eq_ok_iff.trans checkRendered_eq_ok_iff
      | fragment handles =>
        obtain rfl : children.map Tree.handle = handles := hhandles
        constructor
        · simp only [Node.contentWith, Content.summary, permitsSummary_members,
            Content.summaries_eq_map, Tree.contents_eq_map, List.forall_mem_map]
          constructor
          · intro h child hmem
            have hpassed := forM_eq_ok_iff.mp h child.handle (List.mem_map_of_mem hmem)
            rw [hchild child hmem] at hpassed
            exact (hall child hmem).1.mp hpassed
          · intro h
            refine forM_eq_ok_iff.mpr fun handle hhandle => ?_
            obtain ⟨child, hmem, rfl⟩ := List.mem_map.mp hhandle
            rw [hchild child hmem]
            exact (hall child hmem).1.mpr (h child hmem)
        · intro f hf
          obtain ⟨handle, hhandle, hfailed⟩ := forM_eq_error hf
          obtain ⟨child, hmem, rfl⟩ := List.mem_map.mp hhandle
          rw [hchild child hmem] at hfailed
          exact (hall child hmem).2 f hfailed

end World

end MarkupArena
