import MarkupArena.Proofs.Steps

/-! Handles that arenas gave out, and copies of these. The children of stored nodes are such
handles, so no later node comes to stand under them, and each child was stored before its parent. -/
namespace MarkupArena.World

/-- A handle of a slot that an arena has filled, in its current generation or an earlier one. It may
be any copy of the one that was given out. -/
def Issued (w : World) (h : Handle) : Prop :=
  ∃ a generation slot copy, w.Opened a ∧ h = a.handle generation slot copy ∧
    generation ≤ (w.arena a).generation ∧
    (generation = (w.arena a).generation → slot < (w.arena a).size)

theorem Holds.issued {w : World} {b : ArenaId} {h : Handle} {node : Node}
    (hold : w.Holds b h node) : w.Issued h := by
  have hb := hold.opened
  obtain ⟨slot, copy, rfl, hnode⟩ := hold
  obtain ⟨hlt, -⟩ := Array.getElem?_eq_some_iff.mp hnode
  exact ⟨b, _, slot, copy, hb, rfl, le_rfl, fun _ => hlt⟩

theorem issued_of_resolve {w : World} {a : ArenaId} {h : Handle} {node : Node}
    (hr : w.resolve a h = .ok node) : w.Issued h := by
  obtain ⟨b, -, hold⟩ := resolve_eq_ok_iff.mp hr
  exact hold.issued

/-- What filled a slot in the current generation of a later world filled it before. -/
theorem Ages.node_of_lt {w w' : World} (hages : Ages w w') {a : ArenaId} (ha : w.Opened a)
    (hgen : (w'.arena a).generation = (w.arena a).generation) {slot : Nat}
    (hslot : slot < (w.arena a).size) :
    (w'.arena a).nodes[slot]? = (w.arena a).nodes[slot]? := by
  have hnode : (w.arena a).nodes[slot]? = some (w.arena a).nodes[slot] :=
    Array.getElem?_eq_getElem hslot
  rw [hnode]
  exact (hages.arena a ha).node hgen slot _ hnode

theorem Issued.ages {w w' : World} (hages : Ages w w') {h : Handle} (hissued : w.Issued h) :
    w'.Issued h := by
  obtain ⟨a, generation, slot, copy, ha, rfl, hle, hlt⟩ := hissued
  have hle' := (hages.arena a ha).generation_le
  refine ⟨a, generation, slot, copy, hages.opened a ha, rfl, hle.trans hle', fun hgen => ?_⟩
  have hsame : generation = (w.arena a).generation := by omega
  have hslot := hlt hsame
  have hnode := hages.node_of_lt ha (by omega) hslot
  rw [Array.getElem?_eq_getElem hslot] at hnode
  exact (Array.getElem?_eq_some_iff.mp hnode).1

/-- A handle that was given out never comes to name another node. -/
theorem Holds.of_issued {w w' : World} (hages : Ages w w') {b : ArenaId} {h : Handle} {node : Node}
    (hissued : w.Issued h) (hold : w'.Holds b h node) : w.Holds b h node := by
  obtain ⟨a, generation, slot, copy, ha, rfl, hle, hlt⟩ := hissued
  obtain rfl := ArenaId.number_injective (Coordinate.count.inj hold.arena_eq)
  obtain ⟨slot', copy', heq, hnode⟩ := hold
  simp only [ArenaId.handle, Handle.mk.injEq, Coordinate.count.injEq, true_and] at heq
  obtain ⟨hgen, rfl, rfl⟩ := heq
  have hle' := (hages.arena a ha).generation_le
  have hsame : generation = (w.arena a).generation := by omega
  refine ⟨slot, copy, by rw [hsame], ?_⟩
  rw [← hages.node_of_lt ha (by omega) (hlt hsame)]
  exact hnode

theorem not_issued_lastHandle {w : World} {a : ArenaId} (ha : w.Opened a) (node : Node)
    {copy : Nat} : ¬ w.Issued ((w.store a node).lastHandle a copy) := by
  rintro ⟨b, generation, slot, copy', -, heq, -, hlt⟩
  rw [lastHandle_store w a node ha] at heq
  simp only [ArenaId.handle, Handle.mk.injEq, Coordinate.count.injEq] at heq
  obtain ⟨hnumber, rfl, rfl, -⟩ := heq
  obtain rfl := ArenaId.number_injective hnumber
  exact absurd (hlt rfl) (lt_irrefl _)

/-! Where the nodes of a changed world come from. -/

theorem Holds.of_modifyArena {w : World} {a b : ArenaId} {change : Arena → Arena} {h : Handle}
    {node : Node} (hold : (w.modifyArena a change).Holds b h node)
    (hchange : ∀ x, (change x).nodes = #[] ∨
      (change x).nodes = x.nodes ∧ (change x).generation = x.generation) : w.Holds b h node := by
  obtain ⟨slot, copy, rfl, hnode⟩ := hold
  rw [arena_modifyArena] at hnode ⊢
  split at hnode
  next hab =>
    rcases hchange (w.arena b) with hnil | ⟨hnodes, hgen⟩
    · simp [hnil] at hnode
    · rw [if_pos hab, hgen]
      exact ⟨slot, copy, rfl, hnodes ▸ hnode⟩
  next hab =>
    rw [if_neg hab]
    exact ⟨slot, copy, rfl, hnode⟩

theorem Holds.of_link {w : World} {a b source : ArenaId} {h : Handle} {node : Node}
    (hold : (w.modifyArena a (·.addLink source)).Holds b h node) : w.Holds b h node :=
  hold.of_modifyArena fun _ => .inr ⟨rfl, rfl⟩

theorem Holds.of_reset {w : World} {a b : ArenaId} {h : Handle} {node : Node}
    (hold : (w.modifyArena a Arena.next).Holds b h node) : w.Holds b h node :=
  hold.of_modifyArena fun _ => .inl rfl

theorem Holds.of_openArena {w : World} {options : ArenaOptions} {listener : Option Listener}
    {b : ArenaId} {h : Handle} {node : Node}
    (hold : { w with arenas := w.arenas.push { options, listener } }.Holds b h node) :
    w.Holds b h node := by
  obtain ⟨slot, copy, rfl, hnode⟩ := hold
  rw [arena_openArena] at hnode ⊢
  split at hnode
  next => simp at hnode
  next hb =>
    rw [if_neg hb]
    exact ⟨slot, copy, rfl, hnode⟩

theorem Holds.congr {w w' : World} (harenas : w'.arenas = w.arenas) {b : ArenaId} {h : Handle}
    {node : Node} (hold : w'.Holds b h node) : w.Holds b h node := by
  obtain ⟨slot, copy, rfl, hnode⟩ := hold
  rw [arena_congr harenas] at hnode ⊢
  exact ⟨slot, copy, rfl, hnode⟩

/-- A node held after one was stored was held before, or is the one. -/
theorem Holds.of_store {w : World} {a b : ArenaId} {new node : Node} {h : Handle}
    (hold : (w.store a new).Holds b h node) : w.Holds b h node ∨
      w.Opened a ∧ b = a ∧ node = new ∧ ∃ copy, h = (w.store a new).lastHandle a copy := by
  obtain ⟨slot, copy, rfl, hnode⟩ := hold
  by_cases hab : a = b ∧ w.Opened b
  · obtain ⟨rfl, ha⟩ := hab
    rw [arena_store, if_pos ⟨rfl, ha⟩] at hnode ⊢
    simp only [Arena.push, Array.getElem?_push] at hnode
    split at hnode
    next hlast =>
      subst hlast
      exact .inr ⟨ha, rfl, (Option.some.inj hnode).symm, copy, (lastHandle_store w a new ha).symm⟩
    next => exact .inl ⟨slot, copy, rfl, hnode⟩
  · rw [arena_store, if_neg hab] at hnode ⊢
    exact .inl ⟨slot, copy, rfl, hnode⟩

/-- A node held after a change was held before, or is one just stored whose children resolve. -/
theorem Step.holds_cases {w w' : World} (hstep : Step w w') {b : ArenaId} {h : Handle}
    {node : Node} (hold : w'.Holds b h node) : w.Holds b h node ∨
      w.Opened b ∧ w' = w.store b node ∧ (∃ copy, h = w'.lastHandle b copy) ∧
        ∀ child ∈ node.children, ∃ n, w.resolve b child = .ok n := by
  cases hstep with
  | growth hgrowth =>
    cases hgrowth with
    | store ha hall =>
      rcases hold.of_store with hold | ⟨ha, rfl, rfl, hlast⟩
      · exact .inl hold
      · exact .inr ⟨ha, rfl, hlast, hall⟩
    | link a source => exact .inl hold.of_link
    | openArena options listener => exact .inl hold.of_openArena
    | aside harenas => exact .inl (hold.congr harenas)
  | reset a => exact .inl hold.of_reset

/-- The children of all stored nodes were given out, or are copies of such. -/
def Closed (w : World) : Prop :=
  ∀ b h node, w.Holds b h node → ∀ child ∈ node.children, w.Issued child

theorem Closed.step {w w' : World} (hstep : Step w w') (hclosed : w.Closed) : w'.Closed := by
  intro b h node hold child hchild
  apply Issued.ages hstep.ages
  rcases hstep.holds_cases hold with hold | ⟨-, -, -, hall⟩
  · exact hclosed b h node hold child hchild
  · obtain ⟨n, hn⟩ := hall child hchild
    exact issued_of_resolve hn

theorem issued_of_closed {w : World} (hclosed : w.Closed) {a : ArenaId} {h : Handle} {node : Node}
    (hr : w.resolve a h = .ok node) {child : Handle} (hchild : child ∈ node.children) :
    w.Issued child := by
  obtain ⟨b, -, hold⟩ := resolve_eq_ok_iff.mp hr
  exact hclosed b h node hold child hchild

theorem inReach_store {w : World} {a b c : ArenaId} {node : Node} :
    (w.store a node).InReach b c ↔ w.InReach b c := by
  have hlinks : (w.store a node).LinkedTo = w.LinkedTo := by
    funext x y
    unfold LinkedTo
    rw [arena_store]
    split <;> rfl
  unfold InReach
  rw [hlinks]

/-- Storing a node changes nothing about the handles that were given out before. -/
theorem resolve_store_of_issued {w : World} {a b : ArenaId} {node : Node} {h : Handle}
    (hissued : w.Issued h) : (w.store a node).resolve b h = w.resolve b h := by
  obtain ⟨c, generation, slot, copy, hc, rfl, -, hlt⟩ := hissued
  by_cases hreach : w.InReach b c
  · rw [resolve_of_inReach hc hreach,
      resolve_of_inReach (opened_store.mpr hc) (inReach_store.mpr hreach)]
    have hgen : ((w.store a node).arena c).generation = (w.arena c).generation := by
      rw [arena_store]
      split <;> rfl
    unfold resolveOwn
    by_cases hsame : generation = (w.arena c).generation
    · have hnode := (w.grows_store a node).ages.node_of_lt hc hgen (hlt hsame)
      simp [ArenaId.handle, Arena.nodeAt?, hgen, hsame, hnode]
    · simp [ArenaId.handle, hgen, hsame]
  · rw [resolve_of_not_inReach hreach, resolve_of_not_inReach (inReach_store.not.mpr hreach)]

end MarkupArena.World
