import MarkupArena.Proofs.Issued
import MarkupArena.Proofs.Making

/-! What stands directly in an element once fragments are opened up, and that an element's checks
let through only what its schema permits there. -/
namespace MarkupArena

/-- A node stands for itself; a fragment stands for the members of the nodes that its children
name. -/
inductive Node.Member (names : Handle → Node → Prop) : Node → Node → Prop where
  | itself {node : Node} (flat : ∀ children, node ≠ .fragment children) : Member names node node
  | within {children : List Handle} {child : Handle} {node member : Node} :
      child ∈ children → names child node → Member names node member →
      Member names (.fragment children) member

/-- Some arena holds a node under a handle. -/
def World.Live (w : World) (h : Handle) (node : Node) : Prop := ∃ b, w.Holds b h node

theorem World.live_of_resolve {w : World} {a : ArenaId} {h : Handle} {node : Node}
    (hr : w.resolve a h = .ok node) : w.Live h node := by
  obtain ⟨b, -, hold⟩ := World.resolve_eq_ok_iff.mp hr
  exact ⟨b, hold⟩

theorem World.Live.unique {w : World} {h : Handle} {node other : Node} (hn : w.Live h node)
    (ho : w.Live h other) : node = other := by
  obtain ⟨b, hb⟩ := hn
  obtain ⟨c, hc⟩ := ho
  exact (hb.unique hc).2

namespace Node.Member

theorem mono {names names' : Handle → Node → Prop} (himp : ∀ h n, names h n → names' h n)
    {node member : Node} (hm : Member names node member) : Member names' node member := by
  induction hm with
  | itself flat => exact .itself flat
  | within hchild hname _ ih => exact .within hchild (himp _ _ hname) ih

/-- Only what a handle named before it names later, so no members are added. -/
theorem of_issued {w w' : World} (hages : World.Ages w w') (hclosed : w.Closed)
    {node member : Node} (hm : Member w'.Live node member)
    (hissued : ∀ child ∈ node.children, w.Issued child) : Member w.Live node member := by
  induction hm with
  | itself flat => exact .itself flat
  | within hchild hlive _ ih =>
    obtain ⟨b, hold⟩ := hlive
    have hbefore := hold.of_issued hages (hissued _ hchild)
    exact .within hchild ⟨b, hbefore⟩ (ih (hclosed b _ _ hbefore))

end Node.Member

namespace Schema

/-- A member may stand directly in a tag. -/
def Permits (schema : Schema) (tag : String) : Node → Prop
  | .element e => schema.checkChild tag e.tag = .ok ()
  | .text value => schema.checkText tag value = .ok ()
  | .fragment _ => True
  | .rendered markup =>
    (∀ name ∈ markup.tagNames, schema.checkChild tag name = .ok ()) ∧
      (markup.hasText → schema.permitsText tag)

/-- The same for an element with rules of its own. They decide only whether rendered markup may have
text; the schema decides all else. -/
def Tolerates (schema : Schema) (info : TagInfo) : Node → Prop
  | .rendered markup =>
    (∀ name ∈ markup.tagNames, schema.checkChild info.tagName name = .ok ()) ∧
      (markup.hasText → info.allowsText)
  | member => schema.Permits info.tagName member

/-- The schema permits what the rules tolerate if it allows text where they do. -/
theorem Tolerates.permits {schema : Schema} {info known : TagInfo} {member : Node}
    (h : schema.Tolerates info member) (hknown : schema.find? info.tagName = some known)
    (hallows : info.allowsText → known.allowsText) : schema.Permits info.tagName member := by
  cases member with
  | rendered markup =>
    obtain ⟨hnames, htext⟩ := h
    refine ⟨hnames, fun hhas => ?_⟩
    simpa [permitsText, hknown] using hallows (htext hhas)
  | element e => exact h
  | text value => exact h
  | fragment children => exact h

end Schema

namespace World

@[simp] theorem atChild_eq_ok_iff {index : Nat} {outcome : Except Rejection Unit} :
    atChild index outcome = .ok () ↔ outcome = .ok () :=
  mapError_eq_ok_iff

theorem checkRendered_eq_ok_iff {schema : Schema} {info : TagInfo} {markup : Rendered} :
    checkRendered schema info markup = .ok () ↔
      (∀ name ∈ markup.tagNames, schema.checkChild info.tagName name = .ok ()) ∧
        (markup.hasText → info.allowsText) := by
  unfold checkRendered
  rw [bind_eq_ok_iff]
  constructor
  · rintro ⟨_, hnames, htext⟩
    refine ⟨forM_eq_ok_iff.mp hnames, fun hhas => ?_⟩
    cases hallows : info.allowsText with
    | true => rfl
    | false =>
      rw [hhas, hallows] at htext
      cases htext
  · rintro ⟨hnames, htext⟩
    refine ⟨(), forM_eq_ok_iff.mpr hnames, ?_⟩
    split
    next h =>
      rw [Bool.and_eq_true, Bool.not_eq_true'] at h
      exact absurd (htext h.1) (by simp [h.2])
    next => rfl

variable {w : World} {a : ArenaId} {info : TagInfo}

/-- A node that passes as a child of an element has only members that its rules tolerate. -/
theorem tolerates_of_checkMember {index fuel : Nat} {node member : Node}
    (h : w.checkMember a info index fuel node = .ok ()) (hm : Node.Member w.Live node member) :
    (w.arena a).options.schema.Tolerates info member := by
  induction fuel generalizing node with
  | zero => cases h
  | succ fuel ih =>
    cases node with
    | element e =>
      cases hm
      exact atChild_eq_ok_iff.mp h
    | text value =>
      cases hm
      exact atChild_eq_ok_iff.mp h
    | rendered markup =>
      cases hm
      exact checkRendered_eq_ok_iff.mp (atChild_eq_ok_iff.mp h)
    | fragment children =>
      cases hm with
      | itself flat => exact absurd rfl (flat children)
      | within hchild hlive hmember =>
        obtain ⟨n, hn, hcheck⟩ := bind_eq_ok_iff.mp (forM_eq_ok_iff.mp h _ hchild)
        obtain rfl := hlive.unique (live_of_resolve hn)
        exact ih hcheck hmember

/-- All that a part stands for has a property. -/
def AllIn (w : World) (P : Node → Prop) : Part → Prop
  | .text value => P (.text value)
  | .node handle => w.Issued handle ∧ ∀ node member, w.Live handle node →
      Node.Member w.Live node member → P member

section
variable {P : Node → Prop} {part : Part}

theorem AllIn.imp {Q : Node → Prop} (hp : w.AllIn P part) (himp : ∀ node, P node → Q node) :
    w.AllIn Q part := by
  cases part with
  | text value => exact himp _ hp
  | node handle =>
    obtain ⟨hissued, hmembers⟩ := hp
    exact ⟨hissued, fun node member hlive hm => himp member (hmembers node member hlive hm)⟩

theorem AllIn.ages {w' : World} (hages : World.Ages w w') (hclosed : w.Closed)
    (hp : w.AllIn P part) : w'.AllIn P part := by
  cases part with
  | text value => exact hp
  | node handle =>
    obtain ⟨hissued, hmembers⟩ := hp
    refine ⟨hissued.ages hages, fun node member hlive hm => ?_⟩
    obtain ⟨b, hold⟩ := hlive
    have hbefore := hold.of_issued hages hissued
    exact hmembers node member ⟨b, hbefore⟩
      (hm.of_issued hages hclosed (hclosed b handle node hbefore))

theorem AllIn.member {handle : Handle} {node member : Node} (hp : w.AllIn P part)
    (hplaced : Build.Placed w a part handle) (hlive : w.Live handle node)
    (hm : Node.Member w.Live node member) : P member := by
  cases part with
  | text value =>
    obtain rfl := hlive.unique ⟨a, hplaced⟩
    cases hm
    exact hp
  | node g =>
    obtain rfl : handle = g := hplaced
    exact hp.2 node member hlive hm

end

/-- All that a part stands for is permitted in a tag. -/
def PermitsPart (w : World) (schema : Schema) (tag : String) : Part → Prop
  | .text value => schema.Permits tag (.text value)
  | .node handle => w.Issued handle ∧ ∀ node member, w.Live handle node →
      Node.Member w.Live node member → schema.Permits tag member

theorem permitsPart_iff {schema : Schema} {tag : String} {part : Part} :
    w.PermitsPart schema tag part ↔ w.AllIn (schema.Permits tag) part := by
  cases part <;> rfl

theorem PermitsPart.ages {w' : World} {schema : Schema} {tag : String} {part : Part}
    (hages : World.Ages w w') (hclosed : w.Closed) (hp : w.PermitsPart schema tag part) :
    w'.PermitsPart schema tag part :=
  permitsPart_iff.mpr ((permitsPart_iff.mp hp).ages hages hclosed)

theorem PermitsPart.member {schema : Schema} {tag : String} {part : Part} {handle : Handle}
    {node member : Node} (hp : w.PermitsPart schema tag part)
    (hplaced : Build.Placed w a part handle) (hlive : w.Live handle node)
    (hm : Node.Member w.Live node member) : schema.Permits tag member :=
  (permitsPart_iff.mp hp).member hplaced hlive hm

theorem allIn_of_checkPart {index : Nat} {part : Part}
    (h : w.checkPart a info index part = .ok ()) :
    w.AllIn ((w.arena a).options.schema.Tolerates info) part := by
  cases part with
  | text value => exact atChild_eq_ok_iff.mp h
  | node handle =>
    obtain ⟨n, hn, hcheck⟩ := bind_eq_ok_iff.mp h
    refine ⟨issued_of_resolve hn, fun node member hlive hm => ?_⟩
    obtain rfl := hlive.unique (live_of_resolve hn)
    exact tolerates_of_checkMember hcheck hm

theorem checkParts_eq_ok {index : Nat} {parts : List Part}
    (h : w.checkParts a info index parts = .ok ()) {part : Part} (hpart : part ∈ parts) :
    ∃ i, w.checkPart a info i part = .ok () := by
  induction parts generalizing index with
  | nil => cases hpart
  | cons first rest ih =>
    obtain ⟨_, hfirst, hrest⟩ := bind_eq_ok_iff.mp h
    rcases List.mem_cons.mp hpart with rfl | hpart
    · exact ⟨index, hfirst⟩
    · exact ih hrest hpart

/-- In an arena that validates, an element is only made with children that resolve. -/
theorem resolves_of_accept {tag : String} {input : AttributeInput} {parts : List Part}
    {given : List Attribute} (h : w.accept a tag input parts = .ok (info, given))
    (hvalidate : (w.arena a).options.validate) {handle : Handle} (hpart : .node handle ∈ parts) :
    ∃ n, w.resolve a handle = .ok n := by
  obtain ⟨-, -, hchecks⟩ := accept_ok h
  obtain ⟨i, hcheck⟩ := checkParts_eq_ok (hchecks hvalidate).2 hpart
  obtain ⟨n, hn, -⟩ := bind_eq_ok_iff.mp hcheck
  exact ⟨n, hn⟩

theorem allIn_of_checkParts {index : Nat} {parts : List Part}
    (h : w.checkParts a info index parts = .ok ()) :
    ∀ part ∈ parts, w.AllIn ((w.arena a).options.schema.Tolerates info) part := by
  intro part hpart
  obtain ⟨i, hcheck⟩ := checkParts_eq_ok h hpart
  exact allIn_of_checkPart hcheck

theorem checkParts_sound (hinfo : (w.arena a).options.schema.find? info.tagName = some info)
    {index : Nat} {parts : List Part} (h : w.checkParts a info index parts = .ok ()) :
    ∀ part ∈ parts, w.PermitsPart (w.arena a).options.schema info.tagName part := by
  intro part hpart
  have htolerated := allIn_of_checkParts h part hpart
  exact permitsPart_iff.mpr (htolerated.imp fun _ hm => hm.permits hinfo id)

end World

end MarkupArena
