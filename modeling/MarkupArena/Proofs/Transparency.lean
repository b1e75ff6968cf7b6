import MarkupArena.Proofs.Obstacles
import MarkupArena.Proofs.Views

/-! Fragments are seen through: whoever reads a tree reads it as if the members of a fragment stood
in its place, and so do the checks of the element they stand in. -/
namespace MarkupArena

namespace Content

mutual

/-- What is there once fragments are opened up, down to what is none. -/
def opened : Content → List Content
  | element info attributes children => [element info attributes children]
  | text value => [text value]
  | fragment children => openedAll children
  | rendered markup => [rendered markup]

def openedAll : List Content → List Content
  | [] => []
  | content :: rest => content.opened ++ openedAll rest

end

theorem openedAll_append (first second : List Content) :
    openedAll (first ++ second) = openedAll first ++ openedAll second := by
  induction first with
  | nil => rfl
  | cons content rest ih => rw [List.cons_append, openedAll, openedAll, ih, List.append_assoc]

mutual

/-- The nodes that have text of their own, in order. -/
def leaves : Content → List Node
  | element _ _ children => leavesAll children
  | text value => [.text value]
  | fragment children => leavesAll children
  | rendered markup => [.rendered markup]

def leavesAll : List Content → List Node
  | [] => []
  | content :: rest => content.leaves ++ leavesAll rest

end

theorem leavesAll_eq_flatten (contents : List Content) :
    leavesAll contents = (contents.map leaves).flatten := by
  induction contents with
  | nil => rfl
  | cons content rest ih => rw [leavesAll, List.map_cons, List.flatten_cons, ih]

/-- A way to read content. What is read of several in a row can be joined, and a fragment is read as
its members in a row. -/
structure Reader (α : Type) where
  read : Content → α
  join : List α → α
  read_fragment : ∀ children, read (.fragment children) = join (children.map read)
  join_single : ∀ x, join [x] = x
  join_append : ∀ xs ys, join (xs ++ ys) = join [join xs, join ys]

namespace Reader

variable {α : Type} (r : Reader α)

def readAll (contents : List Content) : α := r.join (contents.map r.read)

theorem readAll_single (content : Content) : r.readAll [content] = r.read content :=
  r.join_single _

theorem readAll_append (first second : List Content) :
    r.readAll (first ++ second) = r.join [r.readAll first, r.readAll second] := by
  unfold readAll
  rw [List.map_append, r.join_append]

mutual

theorem readAll_opened (content : Content) : r.readAll content.opened = r.read content := by
  cases content with
  | element info attributes children => exact r.readAll_single _
  | text value => exact r.readAll_single _
  | fragment children =>
    rw [opened, readAll_openedAll children, r.read_fragment]
    rfl
  | rendered markup => exact r.readAll_single _

theorem readAll_openedAll (contents : List Content) :
    r.readAll (openedAll contents) = r.readAll contents := by
  cases contents with
  | nil => rfl
  | cons content rest =>
    have hsplit : content :: rest = [content] ++ rest := rfl
    rw [openedAll, r.readAll_append, readAll_opened content, readAll_openedAll rest, hsplit,
      r.readAll_append, r.readAll_single]

end

def markup : Reader String where
  read := Content.markup
  join := String.join
  read_fragment children := by rw [Content.markup, markups_eq_map]
  join_single x := by simp [String.join]
  join_append xs ys := by simp [String.join_append, String.join_cons]

def outline (level : Nat) : Reader (List String) where
  read := Content.outline level
  join := List.flatten
  read_fragment children := by rw [Content.outline, outlines_eq_flatten]
  join_single x := by simp
  join_append xs ys := by simp

def leaves : Reader (List Node) where
  read := Content.leaves
  join := List.flatten
  read_fragment children := by rw [Content.leaves, leavesAll_eq_flatten]
  join_single x := by simp
  join_append xs ys := by simp

def summary : Reader (List String × Bool) where
  read := Content.summary
  join members := (members.flatMap Prod.fst, members.any Prod.snd)
  read_fragment children := by rw [Content.summary, summaries_eq_map]
  join_single x := by simp
  join_append xs ys := by simp

end Reader

variable {contents others : List Content}

end Content

/-- The text of nodes in a row, if each has one that can be read. -/
def textOf (nodes : List Node) : Except Failure String := String.join <$> nodes.mapM World.ownText

theorem textOf_cons (node : Node) (rest : List Node) :
    textOf (node :: rest) = (do
      let first ← World.ownText node
      let others ← textOf rest
      return first ++ others) := by
  unfold textOf
  rw [List.mapM_cons]
  cases World.ownText node with
  | error f => rfl
  | ok first =>
    cases rest.mapM World.ownText with
    | error f => rfl
    | ok others => exact congrArg Except.ok String.join_cons

/-- A node without text of its own may be left out. -/
theorem textOf_cons_of_empty {node : Node} (h : World.ownText node = .ok "") (rest : List Node) :
    textOf (node :: rest) = textOf rest := by
  rw [textOf_cons, h]
  cases textOf rest with
  | error f => rfl
  | ok others => exact congrArg Except.ok String.empty_append

theorem textOf_append (first second : List Node) :
    textOf (first ++ second) = (do
      let before ← textOf first
      let after ← textOf second
      return before ++ after) := by
  induction first with
  | nil =>
    rw [List.nil_append]
    cases textOf second with
    | error f => rfl
    | ok after => exact congrArg Except.ok String.empty_append.symm
  | cons node rest ih =>
    rw [List.cons_append, textOf_cons, textOf_cons, ih]
    cases World.ownText node with
    | error f => rfl
    | ok own =>
      cases textOf rest with
      | error f => rfl
      | ok before =>
        cases textOf second with
        | error f => rfl
        | ok after => exact congrArg Except.ok String.append_assoc.symm

namespace Tree

variable {w : World} {a : ArenaId}

theorem textOf_visitsAll {trees : List Tree} (h : ∀ tree ∈ trees, ∀ depth,
    textOf ((tree.visits depth).map Visited.node) = textOf tree.content.leaves) (depth : Nat) :
    textOf ((visitsAll depth trees).map Visited.node) =
      textOf (Content.leavesAll (contents trees)) := by
  induction trees with
  | nil => rfl
  | cons tree rest ih =>
    obtain ⟨htree, hrest⟩ := List.forall_mem_cons.mp h
    rw [visitsAll, List.map_append, contents, Content.leavesAll, textOf_append, textOf_append,
      htree, ih hrest]

/-- The nodes that a walk visits have the text of those among them that hold any. -/
theorem Stored.textOf_visits {tree : Tree} (hstored : tree.Stored w a) (depth : Nat) :
    textOf ((tree.visits depth).map Visited.node) = textOf tree.content.leaves := by
  induction hstored generalizing depth with
  | @node handle stored children hresolve hhandles hchildren ih =>
    have hall := textOf_visitsAll ih (depth + 1)
    rw [visits, List.map_cons, content]
    cases stored with
    | element e => exact (textOf_cons_of_empty rfl _).trans hall
    | fragment handles => exact (textOf_cons_of_empty rfl _).trans hall
    | text value =>
      obtain rfl := List.map_eq_nil_iff.mp hhandles
      rfl
    | rendered markup =>
      obtain rfl := List.map_eq_nil_iff.mp hhandles
      rfl

end Tree

namespace World

variable {w : World} {a : ArenaId}

theorem Ordered.textContent_eq_textOf (hw : w.Ordered) {tree : Tree} (hstored : tree.Stored w a) :
    w.textContent a tree.handle = textOf tree.content.leaves := by
  rw [textContent_of_walk (hw.walk_eq hstored), ← hstored.textOf_visits 0, textOf, List.mapM_map]
  rfl

theorem Denotes.grow {w' : World} (hgrow : Grows w w') {h : Handle} {content : Content}
    (hc : w.Denotes a h content) : w'.Denotes a h content := by
  obtain ⟨tree, hstored, hhandle, hcontent⟩ := hc
  exact ⟨tree, hstored.grow hgrow, hhandle, hcontent⟩

/-- A node just stored above what is there. -/
theorem denotes_lastHandle {handles : List Handle} {contents : List Content} (ha : w.Opened a)
    (hchildren : List.Forall₂ (w.Denotes a) handles contents) {node : Node}
    (hnode : node.children = handles) :
    (w.store a node).Denotes a ((w.store a node).lastHandle a) (node.contentWith contents) := by
  apply denotes_of_resolve (holds_lastHandle ha node).resolve
  rw [hnode]
  exact hchildren.imp fun _ _ => Denotes.grow (w.grows_store a node)

theorem resolves_of_denotes {handles : List Handle} {contents : List Content}
    (h : List.Forall₂ (w.Denotes a) handles contents) :
    ∀ child ∈ handles, ∃ n, w.resolve a child = .ok n := by
  intro child hchild
  obtain ⟨trees, hall, rfl, -⟩ := trees_of_denotes h
  obtain ⟨tree, htree, rfl⟩ := List.mem_map.mp hchild
  exact ⟨tree.root, (hall tree htree).resolve⟩

/-- Trees may stand in an element if what is at their top level, taken together, is permitted. -/
theorem Ordered.fits_of_denotes (hw : w.Ordered) {info : TagInfo}
    (hinfo : (w.arena a).options.schema.find? info.tagName = some info) {handles : List Handle}
    {contents : List Content} (h : List.Forall₂ (w.Denotes a) handles contents) :
    (∀ part ∈ handles.map Part.node, w.FitsPart a info part) ↔
      PermitsSummary (w.arena a).options.schema info (Content.Reader.summary.readAll contents) := by
  refine Iff.trans ?_ (permitsSummary_members.trans List.forall_mem_map).symm
  rw [List.forall_mem_map]
  induction h with
  | nil => simp
  | cons hfirst _ ih =>
    obtain ⟨tree, hstored, rfl, rfl⟩ := hfirst
    have hfits : w.FitsPart a info (.node tree.handle) ↔
        PermitsSummary (w.arena a).options.schema info tree.content.summary :=
      (hw.checkPart_iff info 0 _).1.symm.trans (checkPart_of_stored hw hinfo 0 hstored).1
    rw [List.forall_mem_cons, List.forall_mem_cons, ih, hfits]
    rfl

/-- An element may be made in an arena from what has some summary: its tag is known, its attributes
are kept and, where there is validation, all of it is accepted. -/
def Makeable (options : ArenaOptions) (tag : String) (input : AttributeInput)
    (summary : List String × Bool) (info : TagInfo) : Prop :=
  options.schema.find? tag = some info ∧
    AttributeInput.Fresh [] (AttributeInput.kept input.pairs) ∧
    (options.validate → (∀ given ∈ AttributeInput.kept input.pairs,
        options.schema.checkAttribute tag given.name = .ok ()) ∧
      PermitsSummary options.schema info summary)

theorem Ordered.accept_of_denotes (hw : w.Ordered) {handles : List Handle}
    {contents : List Content} (h : List.Forall₂ (w.Denotes a) handles contents) {tag : String}
    {input : AttributeInput} {info : TagInfo} {given : List Attribute} :
    w.accept a tag input (handles.map Part.node) = .ok (info, given) ↔
      given = AttributeInput.kept input.pairs ∧
        Makeable (w.arena a).options tag input (Content.Reader.summary.readAll contents) info := by
  rw [accept_eq_ok_iff, normalize_eq_ok_iff]
  constructor
  · rintro ⟨hinfo, ⟨rfl, hfresh⟩, hchecks⟩
    refine ⟨rfl, hinfo, hfresh, fun hvalidate => ?_⟩
    obtain ⟨hattributes, hparts⟩ := hchecks hvalidate
    obtain rfl := Schema.tagName_of_find? hinfo
    rw [checkAttributes_eq_ok_iff] at hattributes
    rw [hw.checkParts_eq_ok_iff, hw.fits_of_denotes hinfo h] at hparts
    exact ⟨hattributes, hparts⟩
  · rintro ⟨rfl, hinfo, hfresh, hchecks⟩
    refine ⟨hinfo, ⟨rfl, hfresh⟩, fun hvalidate => ?_⟩
    obtain ⟨hattributes, hsummary⟩ := hchecks hvalidate
    obtain rfl := Schema.tagName_of_find? hinfo
    rw [checkAttributes_eq_ok_iff, hw.checkParts_eq_ok_iff, hw.fits_of_denotes hinfo h]
    exact ⟨hattributes, hsummary⟩

end World

namespace Build

variable {w : World} {a : ArenaId}

theorem perform_storeNodes (handles : List Handle) :
    perform ((handles.map Part.node).mapM (store a)) w = (.ok handles, w) := by
  induction handles with
  | nil => rfl
  | cons h rest ih =>
    rw [List.map_cons, List.mapM_cons, perform_bind, store, perform_pure]
    simp only [perform_bind, ih, perform_pure]

/-- Without a budget, a node above trees that are there is stored at once. -/
theorem perform_storeAbove {handles : List Handle} {contents : List Content}
    (hlimit : (w.arena a).options.maxNodes = none)
    (hchildren : List.Forall₂ (w.Denotes a) handles contents) {above : List Handle → Node}
    (habove : (above handles).children = handles) :
    perform (do
      let stored ← (handles.map Part.node).mapM (store a)
      allocate a (above stored)) w =
      (.ok ((w.store a (above handles)).lastHandle a), w.store a (above handles)) := by
  rw [perform_bind, perform_storeNodes]
  apply allocate_of_resolves
  · rw [Arena.exceededLimit?, hlimit]
    rfl
  · rw [habove]
    exact World.resolves_of_denotes hchildren

theorem fragment_of_denotes (ha : w.Opened a) {handles : List Handle} {contents : List Content}
    (hlimit : (w.arena a).options.maxNodes = none)
    (hchildren : List.Forall₂ (w.Denotes a) handles contents) :
    ∃ h w', perform (fragment a (handles.map Child.node)) w = (.ok h, w') ∧ w.Extends w' ∧
      w'.Denotes a h (.fragment contents) := by
  refine ⟨_, w.store a (.fragment handles), ?_, ?_, World.denotes_lastHandle ha hchildren rfl⟩
  · unfold fragment
    rw [Child.listParts_map_node]
    exact perform_storeAbove hlimit hchildren rfl
  · exact .single (.store ha (World.resolves_of_denotes hchildren))

end Build

/-- Handles, some of them in groups, which may hold groups in turn and may be empty. -/
inductive Grouped where
  | one (handle : Handle)
  | many (members : List Grouped)

namespace Grouped

mutual

/-- The handles without the groups, in order. -/
def handles : Grouped → List Handle
  | one handle => [handle]
  | many members => handlesOf members

def handlesOf : List Grouped → List Handle
  | [] => []
  | group :: rest => group.handles ++ handlesOf rest

end

mutual

/-- Makes a fragment of each group, the inner ones first. -/
def make (a : ArenaId) : Grouped → Action Handle
  | one handle => pure handle
  | many members => do
    let made ← makeAll a members
    Build.fragment a (made.map Child.node)

def makeAll (a : ArenaId) : List Grouped → Action (List Handle)
  | [] => pure []
  | group :: rest => do
    let handle ← make a group
    let others ← makeAll a rest
    return handle :: others

end

/-- An element around groups, and a fragment around them. -/
def element (a : ArenaId) (site : CallSite) (tag : String) (input : AttributeInput)
    (groups : List Grouped) : Action Handle := do
  let made ← makeAll a groups
  Build.element a site tag input (made.map Child.node)

def fragment (a : ArenaId) (groups : List Grouped) : Action Handle := do
  let made ← makeAll a groups
  Build.fragment a (made.map Child.node)

section
variable (content : Handle → Content)

mutual

/-- What groups of handles say. -/
def saying : Grouped → Content
  | one handle => content handle
  | many members => .fragment (sayingAll members)

def sayingAll : List Grouped → List Content
  | [] => []
  | group :: rest => saying group :: sayingAll rest

end

mutual

theorem opened_saying (group : Grouped) :
    (group.saying content).opened = Content.openedAll (group.handles.map content) := by
  cases group with
  | one handle => exact (List.append_nil _).symm
  | many members => exact openedAll_sayingAll members

/-- Once they are opened up, groups say what their handles say. -/
theorem openedAll_sayingAll (groups : List Grouped) :
    Content.openedAll (sayingAll content groups) =
      Content.openedAll ((handlesOf groups).map content) := by
  cases groups with
  | nil => rfl
  | cons group rest =>
    rw [sayingAll, Content.openedAll, handlesOf, List.map_append, Content.openedAll_append,
      opened_saying group, openedAll_sayingAll rest]

end

end

variable {a : ArenaId} {content : Handle → Content}

mutual

/-- Without a budget groups of trees can be made, and say what the trees say. -/
theorem make_of_denotes {w : World} (ha : w.Opened a)
    (hlimit : (w.arena a).options.maxNodes = none) (group : Grouped)
    (hden : ∀ h ∈ group.handles, w.Denotes a h (content h)) :
    ∃ h w', perform (group.make a) w = (.ok h, w') ∧ w.Extends w' ∧
      w'.Denotes a h (group.saying content) := by
  cases group with
  | one handle => exact ⟨handle, w, rfl, .refl, hden handle (List.mem_singleton.mpr rfl)⟩
  | many members =>
    obtain ⟨made, u, hmade, hextends, hchildren⟩ := makeAll_of_denotes ha hlimit members hden
    have hgrow := hextends.grows
    obtain ⟨h, w', hrun, hextends', hdenotes⟩ :=
      Build.fragment_of_denotes (hgrow.opened a ha) (hgrow.unlimited ha hlimit) hchildren
    refine ⟨h, w', ?_, .trans hextends hextends', hdenotes⟩
    rw [make, perform_bind, hmade]
    exact hrun

theorem makeAll_of_denotes {w : World} (ha : w.Opened a)
    (hlimit : (w.arena a).options.maxNodes = none) (groups : List Grouped)
    (hden : ∀ h ∈ handlesOf groups, w.Denotes a h (content h)) :
    ∃ made w', perform (makeAll a groups) w = (.ok made, w') ∧ w.Extends w' ∧
      List.Forall₂ (w'.Denotes a) made (sayingAll content groups) := by
  cases groups with
  | nil => exact ⟨[], w, rfl, .refl, .nil⟩
  | cons group rest =>
    obtain ⟨hgroup, hrest⟩ := List.forall_mem_append.mp hden
    obtain ⟨h, u, hrun, hextends, hdenotes⟩ := make_of_denotes ha hlimit group hgroup
    have hgrow := hextends.grows
    obtain ⟨others, w', hothers, hextends', hall⟩ :=
      makeAll_of_denotes (hgrow.opened a ha) (hgrow.unlimited ha hlimit) rest fun h hh =>
        (hrest h hh).grow hgrow
    refine ⟨h :: others, w', ?_, .trans hextends hextends', ?_⟩
    · rw [makeAll, perform_bind, hrun]
      simp only [perform_bind, hothers, perform_pure]
    · exact .cons (hdenotes.grow hextends'.grows) hall

end

end Grouped

end MarkupArena
