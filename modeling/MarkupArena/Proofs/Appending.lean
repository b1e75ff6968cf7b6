import MarkupArena.Proofs.Making

/-! What the making of an element or a fragment stores, node by node: its texts in order, each in
the next slot, and the node above them last. Where there is no room for all of it, or a part does
not resolve, some of the texts are left. -/
namespace MarkupArena

namespace Part

def text? : Part → Option String
  | text value => some value
  | node _ => none

/-- The texts among parts, in order. -/
def texts (parts : List Part) : List String := parts.filterMap text?

/-- The handles of parts whose texts are stored from a slot on, one after the other. -/
def handlesFrom (a : ArenaId) (generation : Nat) : Nat → List Part → List Handle
  | _, [] => []
  | slot, text _ :: rest => a.handle generation slot :: handlesFrom a generation (slot + 1) rest
  | slot, node h :: rest => h :: handlesFrom a generation slot rest

@[simp] theorem texts_nil : texts [] = [] := rfl

@[simp] theorem texts_text (value : String) (rest : List Part) :
    texts (text value :: rest) = value :: texts rest := rfl

@[simp] theorem texts_node (h : Handle) (rest : List Part) :
    texts (node h :: rest) = texts rest := rfl

end Part

/-- Children come to parts: nothing is left of those that are omitted, and those of a list take its
place, before what follows it. -/
inductive Child.Flattens : List Child → List Part → Prop where
  | nil : Flattens [] []
  | omitted {rest : List Child} {parts : List Part} :
      Flattens rest parts → Flattens (.omitted :: rest) parts
  | text {value : String} {rest : List Child} {parts : List Part} :
      Flattens rest parts → Flattens (.text value :: rest) (.text value :: parts)
  | node {h : Handle} {rest : List Child} {parts : List Part} :
      Flattens rest parts → Flattens (.node h :: rest) (.node h :: parts)
  | many {members rest : List Child} {parts : List Part} :
      Flattens (members ++ rest) parts → Flattens (.many members :: rest) parts

mutual

theorem Child.flattens_cons (child : Child) {rest : List Child} {parts : List Part}
    (hrest : Child.Flattens rest parts) :
    Child.Flattens (child :: rest) (child.parts ++ parts) := by
  cases child with
  | omitted => exact .omitted hrest
  | text value => exact .text hrest
  | node h => exact .node hrest
  | many members => exact .many (Child.flattens_append members hrest)

theorem Child.flattens_append (members : List Child) {rest : List Child} {parts : List Part}
    (hrest : Child.Flattens rest parts) :
    Child.Flattens (members ++ rest) (Child.listParts members ++ parts) := by
  cases members with
  | nil => exact hrest
  | cons child others =>
    rw [Child.listParts, List.append_assoc]
    exact Child.flattens_cons child (Child.flattens_append others hrest)

end

theorem Child.flattens_iff {children : List Child} {parts : List Part} :
    Child.Flattens children parts ↔ parts = Child.listParts children := by
  constructor
  · intro h
    induction h with
    | nil => rfl
    | omitted _ ih => exact ih
    | text _ ih => rw [ih]; rfl
    | node _ ih => rw [ih]; rfl
    | many _ ih => rw [ih, Child.listParts_append]; rfl
  · rintro rfl
    simpa using Child.flattens_append children .nil

namespace World

/-- The world with nodes in the next slots of an arena. -/
def append (w : World) (a : ArenaId) (nodes : List Node) : World :=
  { w.modifyArena a fun x => { x with nodes := x.nodes ++ nodes.toArray } with
    stored := w.stored + nodes.length }

variable {w : World} {a : ArenaId}

@[simp] theorem append_nil (w : World) (a : ArenaId) : w.append a [] = w := by
  have hsame : w.arenas.modify a.index (fun x => x) = w.arenas := by
    apply Array.ext <;> simp [Array.getElem_modify]
  unfold append modifyArena
  simp only [Array.append_empty, List.length_nil, Nat.add_zero]
  exact congrArg (fun arenas => { w with arenas }) hsame

/-- Nodes are appended one by one. -/
theorem append_cons (w : World) (a : ArenaId) (node : Node) (rest : List Node) :
    w.append a (node :: rest) = (w.store a node).append a rest := by
  have hsame : w.arenas.modify a.index
        (fun x => { x with nodes := x.nodes ++ (node :: rest).toArray }) =
      (w.arenas.modify a.index (·.push node)).modify a.index
        (fun x => { x with nodes := x.nodes ++ rest.toArray }) := by
    apply Array.ext
    · simp
    · intro i _ _
      simp only [Array.getElem_modify]
      split
      · simp [Arena.push]
      · rfl
  simp only [append, store, modifyArena, hsame, List.length_cons]
  congr 1
  omega

theorem store_eq_append (w : World) (a : ArenaId) (node : Node) :
    w.store a node = w.append a [node] := by
  rw [append_cons, append_nil]

theorem append_append (w : World) (a : ArenaId) (first second : List Node) :
    (w.append a first).append a second = w.append a (first ++ second) := by
  induction first generalizing w with
  | nil => simp
  | cons node rest ih => rw [List.cons_append, append_cons, append_cons, ih]

theorem store_append (w : World) (a : ArenaId) (nodes : List Node) (node : Node) :
    (w.append a nodes).store a node = w.append a (nodes ++ [node]) := by
  rw [store_eq_append, append_append]

theorem grows_append (w : World) (a : ArenaId) (nodes : List Node) :
    Grows w (w.append a nodes) := by
  induction nodes generalizing w with
  | nil =>
    rw [append_nil]
    exact .refl w
  | cons node rest ih =>
    rw [append_cons]
    exact (w.grows_store a node).trans (ih _)

theorem arena_append (ha : w.Opened a) (nodes : List Node) :
    (w.append a nodes).arena a =
      { w.arena a with nodes := (w.arena a).nodes ++ nodes.toArray } :=
  w.arena_modifyArena_self a _ ha

theorem size_append (ha : w.Opened a) (nodes : List Node) :
    ((w.append a nodes).arena a).size = (w.arena a).size + nodes.length := by
  rw [arena_append ha]
  simp [Arena.size]

end World

variable {w w' : World} {a : ArenaId}

theorem allocate_fails {node : Node} {f : Failure}
    (h : perform (allocate a node) w = (.error f, w')) : w' = w ∧
      ((∃ limit actual, f = .budgetExceeded limit actual) ∨
        ∃ child ∈ node.children, w.resolve a child = .error f) := by
  constructor
  · exact allocate_error h
  · rw [perform_allocate] at h
    split at h
    next limit _ =>
      obtain ⟨hf, -⟩ := Prod.mk.inj h
      exact .inl ⟨limit, _, (Except.error.inj hf).symm⟩
    next =>
      split at h
      next => simp at h
      next f' hall =>
        obtain ⟨hf, -⟩ := Prod.mk.inj h
        obtain rfl := Except.error.inj hf
        obtain ⟨child, hchild, hfails⟩ := forM_eq_error hall
        have hresolve : w.resolve a child = .error f' := by
          cases hr : w.resolve a child with
          | error e => rw [hr] at hfails; exact congrArg _ (Except.error.inj hfails)
          | ok n => rw [hr] at hfails; cases hfails
        exact .inr ⟨child, hchild, hresolve⟩

namespace Build

/-- Parts that are all stored leave their texts, and nothing else. -/
theorem storeAll_ok {parts : List Part} {handles : List Handle} (ha : w.Opened a)
    (h : perform (parts.mapM (store a)) w = (.ok handles, w')) :
    w' = w.append a ((Part.texts parts).map Node.text) ∧
      handles = Part.handlesFrom a (w.arena a).generation (w.arena a).size parts := by
  induction parts generalizing w handles with
  | nil =>
    obtain ⟨hhandles, rfl⟩ := Prod.mk.inj h
    exact ⟨(World.append_nil w a).symm, (Except.ok.inj hhandles).symm⟩
  | cons part rest ih =>
    rw [List.mapM_cons] at h
    obtain ⟨first, w₁, hfirst, h⟩ := perform_bind_eq_ok_iff.mp h
    obtain ⟨others, w₂, hrest, h⟩ := perform_bind_eq_ok_iff.mp h
    obtain ⟨hhandles, rfl⟩ := Prod.mk.inj h
    obtain rfl := Except.ok.inj hhandles
    cases part with
    | text value =>
      obtain ⟨rfl, rfl, -⟩ := allocate_ok hfirst
      have hsize : ((w.store a (.text value)).arena a).size = (w.arena a).size + 1 := by
        rw [World.store_eq_append, World.size_append ha]
        rfl
      have hgeneration : ((w.store a (.text value)).arena a).generation =
          (w.arena a).generation := ((w.grows_store a _).arena a ha).generation
      obtain ⟨rfl, rfl⟩ := ih (World.opened_store.mpr ha) hrest
      constructor
      · rw [Part.texts_text, List.map_cons, World.append_cons]
      · rw [World.lastHandle_store w a _ ha, hsize, hgeneration, Part.handlesFrom]
    | node handle =>
      obtain ⟨hhandle, rfl⟩ := Prod.mk.inj hfirst
      obtain rfl := Except.ok.inj hhandle
      obtain ⟨rfl, rfl⟩ := ih ha hrest
      exact ⟨rfl, rfl⟩

/-- Parts that cannot all be stored leave the texts before the first for which there is no room. -/
theorem storeAll_error {parts : List Part} {f : Failure}
    (h : perform (parts.mapM (store a)) w = (.error f, w')) :
    (∃ limit actual, f = .budgetExceeded limit actual) ∧
      ∃ texts, texts <+: Part.texts parts ∧ w' = w.append a (texts.map Node.text) := by
  induction parts generalizing w with
  | nil => cases h
  | cons part rest ih =>
    rw [List.mapM_cons] at h
    rcases perform_bind_eq_error_iff.mp h with hfirst | ⟨first, w₁, hfirst, h⟩
    · cases part with
      | text value =>
        obtain ⟨rfl, hbudget | ⟨child, hchild, -⟩⟩ := allocate_fails hfirst
        · exact ⟨hbudget, [], List.nil_prefix, (World.append_nil _ a).symm⟩
        · cases hchild
      | node handle => cases hfirst
    · rcases perform_bind_eq_error_iff.mp h with hrest | ⟨others, w₂, -, h⟩
      · obtain ⟨hbudget, texts, hprefix, rfl⟩ := ih hrest
        cases part with
        | text value =>
          obtain ⟨-, rfl, -⟩ := allocate_ok hfirst
          refine ⟨hbudget, value :: texts, by simpa using hprefix, ?_⟩
          rw [List.map_cons, World.append_cons]
        | node handle =>
          obtain ⟨-, rfl⟩ := Prod.mk.inj hfirst
          exact ⟨hbudget, texts, hprefix, rfl⟩
      · cases h

section
variable {parts : List Part} {above : List Handle → Node}

/-- A node above parts takes the slot after their texts. -/
theorem storeOver_ok {h : Handle} (ha : w.Opened a)
    (hrun : perform (do
      let handles ← parts.mapM (store a)
      allocate a (above handles)) w = (.ok h, w')) :
    h = a.handle (w.arena a).generation ((w.arena a).size + (Part.texts parts).length) ∧
      w' = w.append a ((Part.texts parts).map Node.text ++
        [above (Part.handlesFrom a (w.arena a).generation (w.arena a).size parts)]) := by
  obtain ⟨handles, w₁, hparts, hrun⟩ := perform_bind_eq_ok_iff.mp hrun
  obtain ⟨rfl, rfl⟩ := storeAll_ok ha hparts
  obtain ⟨rfl, rfl, -⟩ := allocate_ok hrun
  constructor
  · have hgrow := w.grows_append a ((Part.texts parts).map Node.text)
    rw [World.lastHandle_store _ a _ (hgrow.opened a ha), World.size_append ha,
      (hgrow.arena a ha).generation, List.length_map]
  · exact World.store_append ..

/-- Where a node above parts is not made, there is no room for it or its texts, or one of the parts
does not resolve. -/
theorem storeOver_error {f : Failure} (ha : w.Opened a)
    (habove : ∀ handles, (above handles).children = handles)
    (hrun : perform (do
      let handles ← parts.mapM (store a)
      allocate a (above handles)) w = (.error f, w')) :
    (∃ texts, texts <+: Part.texts parts ∧ w' = w.append a (texts.map Node.text)) ∧
      ((∃ limit actual, f = .budgetExceeded limit actual) ∨
        ∃ h, .node h ∈ parts ∧ w'.resolve a h = .error f) := by
  rcases perform_bind_eq_error_iff.mp hrun with hparts | ⟨handles, w₁, hparts, hfails⟩
  · obtain ⟨hbudget, hleft⟩ := storeAll_error hparts
    exact ⟨hleft, .inl hbudget⟩
  · obtain ⟨rfl, hfails⟩ := allocate_fails hfails
    obtain ⟨hleft, -⟩ := storeAll_ok ha hparts
    refine ⟨⟨_, List.prefix_rfl, hleft⟩, hfails.imp_right ?_⟩
    rintro ⟨child, hchild, hresolve⟩
    rw [habove] at hchild
    obtain ⟨-, hplaced⟩ := yields_storeAll ha parts w w' handles (.refl w) hparts
    obtain ⟨part, hpart, hp⟩ := placed_of_mem (hplaced w' (.refl w')) hchild
    cases part with
    | text value =>
      -- A text just stored resolves, so it is not what failed.
      rw [World.Holds.resolve hp] at hresolve
      cases hresolve
    | node handle =>
      obtain rfl : child = handle := hp
      exact ⟨child, hpart, hresolve⟩

end

end Build

end MarkupArena
