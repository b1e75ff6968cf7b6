import MarkupArena.World.Ownership
import Mathlib.Logic.Relation
import Mathlib.Data.List.Nodup
import Mathlib.Data.List.Range

/-! Which arenas are within reach of an arena along links, and that the search for the owner of a
handle finds exactly the one among them that the handle names. -/
namespace MarkupArena

theorem ArenaId.number_injective {a b : ArenaId} (h : a.number = b.number) : a = b := by
  cases a
  cases b
  simpa [ArenaId.number] using h

namespace World

def Opened (w : World) (a : ArenaId) : Prop := a.index < w.arenas.size

instance (w : World) (a : ArenaId) : Decidable (w.Opened a) :=
  inferInstanceAs (Decidable (a.index < w.arenas.size))

def LinkedTo (w : World) (a b : ArenaId) : Prop := b ∈ (w.arena a).links

/-- An arena is within reach of another along any number of links. -/
def InReach (w : World) : ArenaId → ArenaId → Prop := Relation.ReflTransGen w.LinkedTo

theorem arena_of_not_opened {w : World} {a : ArenaId} (h : ¬ w.Opened a) : w.arena a = noArena := by
  unfold Opened at h
  simp [World.arena, Array.getD_eq_getD_getElem?, Nat.not_lt.mp h]

theorem LinkedTo.opened {w : World} {a b : ArenaId} (h : w.LinkedTo a b) : w.Opened a := by
  by_contra ha
  simp [LinkedTo, arena_of_not_opened ha, noArena] at h

theorem mem_arenaIds {w : World} {a : ArenaId} : a ∈ w.arenaIds ↔ w.Opened a := by
  constructor
  · intro h
    obtain ⟨n, hn, rfl⟩ := List.mem_map.mp h
    exact List.mem_range.mp hn
  · intro h
    exact List.mem_map.mpr ⟨a.index, List.mem_range.mpr h, rfl⟩

theorem arenaIds_nodup (w : World) : w.arenaIds.Nodup := by
  apply List.nodup_range.map
  intro m n h
  exact congrArg ArenaId.index h

/-- What the search finds has the number it looks for, and lies in reach of a pending arena. -/
theorem search_sound {w : World} {number : Coordinate} {unvisited pending : List ArenaId}
    {b : ArenaId} (h : w.search number unvisited pending = some b) :
    number = .count b.number ∧ b ∈ unvisited ∧ ∃ a ∈ pending, w.InReach a b := by
  fun_induction World.search w number unvisited pending with
  | case1 => simp at h
  | case2 unvisited a rest hmem hnumber =>
    obtain rfl := Option.some.inj h
    exact ⟨hnumber, hmem, a, List.mem_cons_self, .refl⟩
  | case3 unvisited a rest hmem hnumber ih =>
    obtain ⟨hb, hun, c, hc, hreach⟩ := ih h
    refine ⟨hb, List.mem_of_mem_erase hun, ?_⟩
    rcases List.mem_append.mp hc with hlink | hrest
    · exact ⟨a, List.mem_cons_self, .head hlink hreach⟩
    · exact ⟨c, List.mem_cons_of_mem _ hrest, hreach⟩
  | case4 unvisited a rest hmem ih =>
    obtain ⟨hb, hun, c, hc, hreach⟩ := ih h
    exact ⟨hb, hun, c, List.mem_cons_of_mem _ hc, hreach⟩

/-- A search without a find ends with a set of arenas that is closed under links, holds all that
was visited or pending, and lacks every arena with the number that was not visited before. -/
theorem search_exhaustive {w : World} {number : Coordinate} {unvisited pending : List ArenaId}
    (h : w.search number unvisited pending = none) (hnodup : unvisited.Nodup)
    (hinv : ∀ x y, x ∉ unvisited → w.LinkedTo x y → y ∉ unvisited ∨ y ∈ pending) :
    ∃ seen : ArenaId → Prop, (∀ a, a ∉ unvisited ∨ a ∈ pending → seen a) ∧
      (∀ x y, seen x → w.LinkedTo x y → seen y) ∧
      ∀ b ∈ unvisited, number = .count b.number → ¬ seen b := by
  fun_induction World.search w number unvisited pending with
  | case1 unvisited =>
    refine ⟨fun x => x ∉ unvisited, by simp, ?_, fun b hb _ hn => hn hb⟩
    intro x y hx hlink
    simpa using hinv x y hx hlink
  | case2 => simp at h
  | case3 unvisited a rest hmem hnumber ih =>
    have hself : a ∉ unvisited.erase a := hnodup.not_mem_erase
    have hother : ∀ x, x ≠ a → x ∉ unvisited.erase a → x ∉ unvisited := fun x hne hx hm =>
      hx ((List.mem_erase_of_ne hne).mpr hm)
    obtain ⟨seen, hstart, hclosed, hmiss⟩ := ih h (hnodup.erase a) (by
      intro x y hx hlink
      by_cases hxa : x = a
      · subst hxa
        exact .inr (List.mem_append_left _ hlink)
      · rcases hinv x y (hother x hxa hx) hlink with hy | hy
        · exact .inl fun hm => hy (List.mem_of_mem_erase hm)
        · rcases List.mem_cons.mp hy with rfl | hy
          · exact .inl hself
          · exact .inr (List.mem_append_right _ hy))
    refine ⟨seen, ?_, hclosed, ?_⟩
    · rintro x (hx | hx)
      · exact hstart x (.inl fun hm => hx (List.mem_of_mem_erase hm))
      · rcases List.mem_cons.mp hx with rfl | hx
        · exact hstart x (.inl hself)
        · exact hstart x (.inr (List.mem_append_right _ hx))
    · intro b hb hn
      have hne : b ≠ a := fun he => hnumber (he ▸ hn)
      exact hmiss b ((List.mem_erase_of_ne hne).mpr hb) hn
  | case4 unvisited a rest hmem ih =>
    obtain ⟨seen, hstart, hclosed, hmiss⟩ := ih h hnodup (by
      intro x y hx hlink
      rcases hinv x y hx hlink with hy | hy
      · exact .inl hy
      · rcases List.mem_cons.mp hy with rfl | hy
        · exact .inl hmem
        · exact .inr hy)
    refine ⟨seen, ?_, hclosed, hmiss⟩
    rintro x (hx | hx)
    · exact hstart x (.inl hx)
    · rcases List.mem_cons.mp hx with rfl | hx
      · exact hstart x (.inl hmem)
      · exact hstart x (.inr hx)

/-- The owner search finds the arena with a number exactly if it is within reach. -/
theorem owner?_eq_some_iff {w : World} {a b : ArenaId} {number : Coordinate} :
    w.owner? a number = some b ↔ number = .count b.number ∧ w.Opened b ∧ w.InReach a b := by
  constructor
  · intro h
    obtain ⟨hn, hb, c, hc, hreach⟩ := search_sound h
    obtain rfl := List.mem_singleton.mp hc
    exact ⟨hn, mem_arenaIds.mp hb, hreach⟩
  · rintro ⟨rfl, hopened, hreach⟩
    cases hfound : w.owner? a (.count b.number) with
    | some c =>
      obtain ⟨hn, -⟩ := search_sound hfound
      rw [ArenaId.number_injective (Coordinate.count.inj hn)]
    | none =>
      -- Nothing is visited before the search, so only arenas that were never opened are left out.
      obtain ⟨seen, hstart, hclosed, hmiss⟩ := search_exhaustive hfound w.arenaIds_nodup (by
        intro x y hx hlink
        exact absurd (mem_arenaIds.mpr hlink.opened) hx)
      have hseen : ∀ c, w.InReach a c → seen c := by
        intro c hc
        induction hc with
        | refl => exact hstart a (.inr (by simp))
        | tail _ hlink ih => exact hclosed _ _ ih hlink
      exact absurd (hseen b hreach) (hmiss b (mem_arenaIds.mpr hopened) rfl)

/-! What a handle names, without regard to who looks. -/

/-- An arena holds a node under a handle of its current generation, given out or made by hand. -/
def Holds (w : World) (b : ArenaId) (h : Handle) (node : Node) : Prop :=
  ∃ slot copy, h = b.handle (w.arena b).generation slot copy ∧
    (w.arena b).nodes[slot]? = some node

theorem Holds.arena_eq {w : World} {b : ArenaId} {h : Handle} {node : Node}
    (hold : w.Holds b h node) : h.arena = .count b.number := by
  obtain ⟨slot, copy, rfl, -⟩ := hold
  rfl

theorem Holds.opened {w : World} {b : ArenaId} {h : Handle} {node : Node}
    (hold : w.Holds b h node) : w.Opened b := by
  obtain ⟨slot, -, -, hnode⟩ := hold
  by_contra hb
  simp [arena_of_not_opened hb, noArena] at hnode

theorem Holds.unique {w : World} {b c : ArenaId} {h : Handle} {node other : Node}
    (hb : w.Holds b h node) (hc : w.Holds c h other) : b = c ∧ node = other := by
  have hnumber := hb.arena_eq.symm.trans hc.arena_eq
  obtain rfl := ArenaId.number_injective (Coordinate.count.inj hnumber)
  obtain ⟨slot, copy, rfl, hnode⟩ := hb
  obtain ⟨slot', copy', heq, hother⟩ := hc
  obtain rfl : slot = slot' := Coordinate.count.inj (congrArg Handle.slot heq)
  exact ⟨rfl, Option.some.inj (hnode.symm.trans hother)⟩

theorem resolveOwn_eq_ok_iff {w : World} {b : ArenaId} {h : Handle} {node : Node}
    (hnumber : h.arena = .count b.number) :
    w.resolveOwn b h = .ok node ↔ w.Holds b h node := by
  obtain ⟨arena, generation, slot, copy⟩ := h
  obtain rfl : arena = .count b.number := hnumber
  unfold resolveOwn
  by_cases hg : generation = .count (w.arena b).generation
  · subst hg
    cases slot with
    | count n =>
      cases hn : (w.arena b).nodes[n]? <;>
        simp [Arena.nodeAt?, hn, Holds, ArenaId.handle]
    | stray x => simp [Arena.nodeAt?, Holds, ArenaId.handle]
  · simp [hg, Holds, ArenaId.handle]

/-- A handle resolves to what some arena within reach holds under it. -/
theorem resolve_eq_ok_iff {w : World} {a : ArenaId} {h : Handle} {node : Node} :
    w.resolve a h = .ok node ↔ ∃ b, w.InReach a b ∧ w.Holds b h node := by
  unfold resolve
  constructor
  · intro hr
    split at hr
    next b hb =>
      obtain ⟨hnumber, -, hreach⟩ := owner?_eq_some_iff.mp hb
      exact ⟨b, hreach, (resolveOwn_eq_ok_iff hnumber).mp hr⟩
    next => simp at hr
  · rintro ⟨b, hreach, hold⟩
    rw [owner?_eq_some_iff.mpr ⟨hold.arena_eq, hold.opened, hreach⟩]
    exact (resolveOwn_eq_ok_iff hold.arena_eq).mpr hold

theorem Holds.resolve {w : World} {a : ArenaId} {h : Handle} {node : Node}
    (hold : w.Holds a h node) : w.resolve a h = .ok node :=
  resolve_eq_ok_iff.mpr ⟨a, .refl, hold⟩

/-- A handle resolves to the same node wherever it resolves. -/
theorem resolve_unique {w : World} {a b : ArenaId} {h : Handle} {node other : Node}
    (ha : w.resolve a h = .ok node) (hb : w.resolve b h = .ok other) : node = other := by
  obtain ⟨c, -, hold⟩ := resolve_eq_ok_iff.mp ha
  obtain ⟨d, -, hold'⟩ := resolve_eq_ok_iff.mp hb
  exact (hold.unique hold').2

/-- What can be seen from an arena can be seen from every arena that it is in reach of. -/
theorem resolve_of_reach {w : World} {a b : ArenaId} (hreach : w.InReach b a) {h : Handle}
    {node : Node} (hr : w.resolve a h = .ok node) : w.resolve b h = .ok node := by
  obtain ⟨c, hc, hold⟩ := resolve_eq_ok_iff.mp hr
  exact resolve_eq_ok_iff.mpr ⟨c, hreach.trans hc, hold⟩

theorem resolve_of_inReach {w : World} {a b : ArenaId} (hb : w.Opened b) (hreach : w.InReach a b)
    {generation slot copy : Nat} : w.resolve a (b.handle generation slot copy) =
      w.resolveOwn b (b.handle generation slot copy) := by
  have howner : w.owner? a (.count b.number) = some b := owner?_eq_some_iff.mpr ⟨rfl, hb, hreach⟩
  simp only [resolve, ArenaId.handle, howner]

theorem resolve_of_not_inReach {w : World} {a b : ArenaId} (hreach : ¬ w.InReach a b)
    {generation slot copy : Nat} : w.resolve a (b.handle generation slot copy) =
      .error (.invalidHandle .foreignArena (b.handle generation slot copy) a) := by
  have howner : w.owner? a (.count b.number) = none := by
    cases hfound : w.owner? a (.count b.number) with
    | none => rfl
    | some c =>
      obtain ⟨hnumber, -, hc⟩ := owner?_eq_some_iff.mp hfound
      obtain rfl := ArenaId.number_injective (Coordinate.count.inj hnumber)
      exact absurd hc hreach
  simp only [resolve, ArenaId.handle, howner]

end World

end MarkupArena
