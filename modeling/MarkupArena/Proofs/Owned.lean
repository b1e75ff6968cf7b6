import MarkupArena.Proofs.Depth
import MarkupArena.Proofs.HandleSafety
import MarkupArena.Proofs.Issued
import MarkupArena.Proofs.Transfers

/-! Which handles an arena owns, and which it says it can resolve. Every node that an arena holds
was stored by a call that answered with its handle, so the handles with a node are those that were
given out in the current generation. The two tests compare a slot with the size only: they also
accept made-up handles whose slot lies below the size without being one of the slots. -/
namespace MarkupArena

variable {α : Type}

/-- The handle that an arena gives out, of those with the same numbers. -/
def Handle.original (h : Handle) : Handle := { h with copy := 0 }

namespace World

/-- A handle has the numbers of one that an arena gave out in its current generation: that one was
the answer when a node was stored there, and the arena was not reset since. -/
def GaveOut (w : World) (a : ArenaId) (h : Handle) : Prop :=
  ∃ (u v : World) (node : Node), Evolves {} u ∧ u.Opened a ∧
    perform (allocate a node) u = (.ok h.original, v) ∧ v.Evolves w ∧
    (w.arena a).generation = (u.arena a).generation

/-- A handle with the number and the generation of an arena whose slot is no count and yet lies
below the size, such as a negative one. -/
def Astray (w : World) (a : ArenaId) (h : Handle) : Prop :=
  ∃ x : Number, h.arena = .count a.number ∧ h.generation = .count (w.arena a).generation ∧
    h.slot = .stray x ∧ x.ltNat (w.arena a).size = true

variable {w w' : World} {a b : ArenaId} {h : Handle} {node : Node}

theorem GaveOut.holds (hgave : w.GaveOut a h) : ∃ node, w.Holds a h node := by
  obtain ⟨u, v, node, -, hopened, hrun, hlater, hgen⟩ := hgave
  have hslot := node_of_allocate hopened hrun hlater.ages hgen
  have hhandle := allocate_handle hopened hrun
  rw [← hgen] at hhandle
  refine ⟨node, _, h.copy, ?_, hslot⟩
  cases h
  simpa [Handle.original, ArenaId.handle] using hhandle

theorem GaveOut.evolves (hgave : w.GaveOut a h) (hlater : w.Evolves w')
    (hgen : (w'.arena a).generation = (w.arena a).generation) : w'.GaveOut a h := by
  obtain ⟨u, v, node, hu, hopened, hrun, hv, hkept⟩ := hgave
  exact ⟨u, v, node, hu, hopened, hrun, hv.trans hlater, hgen.trans hkept⟩

/-- A handle has a node in two worlds only if the arena is in the same generation. -/
theorem Holds.generation_eq {other : Node} (hold : w.Holds a h node) (hold' : w'.Holds a h other) :
    (w'.arena a).generation = (w.arena a).generation := by
  obtain ⟨slot, copy, rfl, -⟩ := hold
  obtain ⟨slot', copy', hhandle, -⟩ := hold'
  simp only [ArenaId.handle, Handle.mk.injEq, Coordinate.count.injEq] at hhandle
  exact hhandle.2.1.symm

/-- A world that came about by elementary changes, and whose arenas gave out the handles of all the
nodes that they hold. -/
structure Recorded (w : World) : Prop where
  evolves : Evolves {} w
  gaveOut : ∀ a h node, w.Holds a h node → w.GaveOut a h

theorem recorded_empty : Recorded {} where
  evolves := .refl
  gaveOut _ _ _ hold := absurd hold.opened (Nat.not_lt_zero _)

namespace Recorded

/-- A change that brings no new node keeps the record. -/
theorem keep (hw : w.Recorded) (hlater : w.Evolves w')
    (hback : ∀ a h node, w'.Holds a h node → w.Holds a h node) : w'.Recorded where
  evolves := hw.evolves.trans hlater
  gaveOut a h node hold := by
    have hbefore := hback a h node hold
    exact (hw.gaveOut a h node hbefore).evolves hlater (hbefore.generation_eq hold)

theorem aside (hw : w.Recorded) (harenas : w'.arenas = w.arenas) (hstored : w.stored ≤ w'.stored) :
    w'.Recorded := by
  apply hw.keep (.single (.growth (.aside harenas hstored)))
  intro a h node hold
  exact hold.congr harenas

theorem link (hw : w.Recorded) (a source : ArenaId) :
    (w.modifyArena a (·.addLink source)).Recorded := by
  apply hw.keep (.single (.growth (.link a source)))
  intro b h node hold
  exact hold.of_link

theorem reset (hw : w.Recorded) (a : ArenaId) : (w.modifyArena a Arena.next).Recorded := by
  apply hw.keep (.single (.reset a))
  intro b h node hold
  exact hold.of_reset

theorem opening (hw : w.Recorded) (options : ArenaOptions) (listener : Option Listener) :
    (w.opening options listener).Recorded := by
  apply hw.keep (.single (.growth (.openArena options listener)))
  intro b h node hold
  exact hold.of_openArena

/-- The handle of a node that is stored is the answer of the call that stores it. -/
theorem allocate (a : ArenaId) (node : Node) :
    Invariant Recorded (MarkupArena.allocate a node) := by
  intro w hw
  refine ⟨?_, fun _ _ => True.intro⟩
  rcases hrun : perform (MarkupArena.allocate a node) w with ⟨f | handle, w'⟩
  · rw [allocate_error hrun]
    exact hw
  · obtain ⟨hhandle, rfl, hall⟩ := allocate_ok hrun
    have hlater : w.Evolves (w.store a node) := .single (.growth (growth_store hall))
    refine ⟨hw.evolves.trans hlater, fun b h stored hold => ?_⟩
    rcases hold.of_store with hbefore | ⟨hopened, rfl, rfl, copy, rfl⟩
    · exact (hw.gaveOut b h stored hbefore).evolves hlater (hbefore.generation_eq hold)
    · have hgen : ((w.store b stored).arena b).generation = (w.arena b).generation := by
        rw [arena_store]
        split <;> rfl
      rw [hhandle] at hrun
      exact ⟨w, _, stored, hw.evolves, hopened, hrun, .refl, hgen⟩

theorem endures : Endures Recorded where
  aside _ _ harenas hstored hw := hw.aside harenas hstored
  opening _ options listener hw := hw.opening options listener
  link _ a source hw := hw.link a source
  reset _ a hw := hw.reset a
  allocate := allocate

end Recorded

variable {w : World} {a b : ArenaId} {h : Handle}

theorem Reachable.recorded (hw : w.Reachable) : w.Recorded :=
  Recorded.endures.leads hw recorded_empty

theorem Reachable.gaveOut_iff (hw : w.Reachable) :
    w.GaveOut a h ↔ ∃ node, w.Holds a h node := by
  constructor
  · exact GaveOut.holds
  · rintro ⟨node, hold⟩
    exact hw.recorded.gaveOut a h node hold

/-- An arena owns the handles that have a node there, and those astray. -/
theorem owns_eq_true_iff : w.owns a h = true ↔ (∃ node, w.Holds a h node) ∨ w.Astray a h := by
  obtain ⟨arena, generation, slot, copy⟩ := h
  cases slot with
  | count n =>
    simp only [owns, Coordinate.below, Bool.and_eq_true, decide_eq_true_eq, Holds, Astray,
      ArenaId.handle, Handle.mk.injEq, Coordinate.count.injEq, reduceCtorEq, and_false, false_and,
      exists_false, or_false]
    constructor
    · rintro ⟨⟨rfl, rfl⟩, hlt⟩
      exact ⟨_, n, copy, ⟨rfl, rfl, rfl, rfl⟩, Array.getElem?_eq_getElem hlt⟩
    · rintro ⟨node, slot, copy', ⟨rfl, rfl, rfl, -⟩, hnode⟩
      exact ⟨⟨rfl, rfl⟩, (Array.getElem?_eq_some_iff.mp hnode).1⟩
  | stray x =>
    simp only [owns, Coordinate.below, Bool.and_eq_true, decide_eq_true_eq, Holds, Astray,
      ArenaId.handle, Handle.mk.injEq, reduceCtorEq, and_false, false_and, exists_false, false_or,
      Coordinate.stray.injEq]
    constructor
    · rintro ⟨⟨rfl, rfl⟩, hlt⟩
      exact ⟨x, rfl, rfl, rfl, hlt⟩
    · rintro ⟨y, rfl, rfl, rfl, hlt⟩
      exact ⟨⟨rfl, rfl⟩, hlt⟩

theorem arena_of_owns (howns : w.owns a h = true) : h.arena = .count a.number := by
  rcases owns_eq_true_iff.mp howns with ⟨node, hold⟩ | ⟨x, harena, -⟩
  · exact hold.arena_eq
  · exact harena

/-- An arena says it can resolve what some arena within reach owns. -/
theorem canResolve_eq_true_iff :
    w.canResolve a h = true ↔ ∃ b, w.InReach a b ∧ w.Opened b ∧ w.owns b h = true := by
  unfold canResolve
  constructor
  · intro hcan
    split at hcan
    next b hb =>
      obtain ⟨-, hopened, hreach⟩ := owner?_eq_some_iff.mp hb
      exact ⟨b, hreach, hopened, hcan⟩
    next => cases hcan
  · rintro ⟨b, hreach, hopened, howns⟩
    rw [owner?_eq_some_iff.mpr ⟨arena_of_owns howns, hopened, hreach⟩]
    exact howns

/-- A handle astray has no node anywhere. -/
theorem resolve_of_astray (hastray : w.Astray b h) (hreach : w.InReach a b) (hb : w.Opened b) :
    w.resolve a h = .error (.invalidHandle .outOfRange h b) := by
  obtain ⟨x, harena, hgen, hslot, -⟩ := hastray
  have howner : w.owner? a h.arena = some b := owner?_eq_some_iff.mpr ⟨harena, hb, hreach⟩
  simp [resolve, howner, resolveOwn, Arena.nodeAt?, hgen, hslot]

/-- What the two tests of a handle tell. An arena says it can resolve the handles that it does
resolve, and owns those that it gave out in its current generation; beyond these both accept only
handles astray, which resolve to nothing. -/
theorem owns_and_canResolve (hw : w.Reachable) (a : ArenaId) (h : Handle) :
    (w.canResolve a h = true ↔ (∃ node, w.resolve a h = .ok node) ∨
      ∃ b, w.InReach a b ∧ w.Opened b ∧ w.Astray b h) ∧
    (w.owns a h = true ↔ w.GaveOut a h ∨ w.Astray a h) ∧
    ∀ b, w.InReach a b → w.Opened b → w.Astray b h →
      w.resolve a h = .error (.invalidHandle .outOfRange h b) := by
  refine ⟨?_, ?_, fun b hreach hb hastray => resolve_of_astray hastray hreach hb⟩
  · rw [canResolve_eq_true_iff]
    constructor
    · rintro ⟨b, hreach, hb, howns⟩
      rcases owns_eq_true_iff.mp howns with ⟨node, hold⟩ | hastray
      · exact .inl ⟨node, resolve_eq_ok_iff.mpr ⟨b, hreach, hold⟩⟩
      · exact .inr ⟨b, hreach, hb, hastray⟩
    · rintro (⟨node, hr⟩ | ⟨b, hreach, hb, hastray⟩)
      · obtain ⟨b, hreach, hold⟩ := resolve_eq_ok_iff.mp hr
        exact ⟨b, hreach, hold.opened, owns_eq_true_iff.mpr (.inl ⟨node, hold⟩)⟩
      · exact ⟨b, hreach, hb, owns_eq_true_iff.mpr (.inr hastray)⟩
  · rw [owns_eq_true_iff, hw.gaveOut_iff]

end World

theorem owns_and_canResolve_linkedText : linkedText.Reachable ∧
    linkedText.canResolve ⟨1⟩ oldText.handle = true ∧
    linkedText.GaveOut ⟨0⟩ oldText.handle := by
  have htext : linkedText.resolve ⟨1⟩ oldText.handle = .ok (.text "old") :=
    World.resolve_eq_ok_iff.mpr ⟨⟨0⟩, reach_linkedText, 0, 0, rfl, rfl⟩
  obtain ⟨hcan, -, -⟩ := World.owns_and_canResolve reachable_linkedText ⟨1⟩ oldText.handle
  obtain ⟨-, howns, -⟩ := World.owns_and_canResolve reachable_linkedText ⟨0⟩ oldText.handle
  refine ⟨reachable_linkedText, hcan.mpr (.inl ⟨_, htext⟩), ?_⟩
  rcases howns.mp (by decide) with hgave | ⟨x, -, -, hslot, -⟩
  · exact hgave
  · cases hslot

/-- A handle with the slot -1 of the first arena. -/
def beforeFirst : Handle :=
  { arena := .count 1, generation := .count 0, slot := .ofNumber (.ofRatio true 1 1) }

/-- The slot before the first is owned and said to be resolved, though no node was ever stored
there and none is found. -/
theorem owned_beforeFirst : linkedText.Reachable ∧
    linkedText.owns ⟨0⟩ beforeFirst = true ∧ ¬ linkedText.GaveOut ⟨0⟩ beforeFirst ∧
    linkedText.canResolve ⟨1⟩ beforeFirst = true ∧
    linkedText.resolve ⟨1⟩ beforeFirst =
      .error (.invalidHandle .outOfRange beforeFirst ⟨0⟩) := by
  have howns : linkedText.owns ⟨0⟩ beforeFirst = true := by decide
  have hopened : linkedText.Opened ⟨0⟩ := by decide
  have hastray : linkedText.Astray ⟨0⟩ beforeFirst :=
    ⟨.ofRatio true 1 1, rfl, rfl, by decide, by decide⟩
  refine ⟨reachable_linkedText, howns, ?_, ?_, ?_⟩
  · intro hgave
    obtain ⟨node, slot, copy, hhandle, -⟩ := hgave.holds
    cases hhandle
  · exact World.canResolve_eq_true_iff.mpr ⟨⟨0⟩, reach_linkedText, hopened, howns⟩
  · exact World.resolve_of_astray hastray reach_linkedText hopened

end MarkupArena
